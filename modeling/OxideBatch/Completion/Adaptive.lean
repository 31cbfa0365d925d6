import Mathlib
import OxideBatch.Chunk.Events
import OxideBatch.Core.ComponentMigration

/-! The adaptive completion policy: the target it decides with, the candidate of the
attempt under way, and the durable copy its stream hands to a commit. -/

namespace OxideBatch.Completion

open OxideBatch.Core OxideBatch.Lib OxideBatch.Chunk Program

/-- `ChunkSize::new`. -/
def chunkSize (value : Nat) : Option ChunkSize :=
  if accepted : 0 < value ∧ value < 2 ^ 32 then some ⟨value, accepted.1, accepted.2⟩ else none

private theorem chunkSize_get (size : ChunkSize) : chunkSize size.get = some size :=
  dif_pos ⟨size.positive, size.within⟩

private theorem get_of_chunkSize {value : Nat} {size : ChunkSize}
    (made : chunkSize value = some size) :
    size.get = value := by
  unfold chunkSize at made
  split at made
  · cases made
    rfl
  · cases made

/-- `ChunkTimeThreshold`: nanoseconds in `1 ms..=24 h`. -/
structure ChunkTimeThreshold where
  get : Nat
  atLeast : 1000000 ≤ get
  atMost : get ≤ 86400 * 1000000000

/-- `u32::clamp`. -/
def clamped (value low high : Nat) : Nat := max low (min value high)

/-- `AdaptiveBounds`. -/
structure AdaptiveBounds where
  min : ChunkSize
  max : ChunkSize
  ordered : min.get ≤ max.get

namespace AdaptiveBounds

/-- A target between the bounds. -/
def Within (bounds : AdaptiveBounds) (target : ChunkSize) : Prop :=
  bounds.min.get ≤ target.get ∧ target.get ≤ bounds.max.get

instance (bounds : AdaptiveBounds) (target : ChunkSize) : Decidable (bounds.Within target) :=
  inferInstanceAs (Decidable (_ ∧ _))

def clamp (bounds : AdaptiveBounds) (target : Nat) : ChunkSize :=
  (chunkSize (clamped target bounds.min.get bounds.max.get)).getD bounds.min

private theorem within_min (bounds : AdaptiveBounds) : bounds.Within bounds.min :=
  ⟨le_refl _, bounds.ordered⟩

private theorem within_clamp (bounds : AdaptiveBounds) (target : Nat) :
    bounds.Within (bounds.clamp target) := by
  have ordered := bounds.ordered
  unfold clamp
  cases made : chunkSize (clamped target bounds.min.get bounds.max.get) with
  | none => exact bounds.within_min
  | some size =>
    have value := get_of_chunkSize made
    rw [clamped] at value
    constructor
    · simp only [Option.getD_some]
      omega
    · simp only [Option.getD_some]
      omega

end AdaptiveBounds

/-- `adjust_target`; durations are counted in nanoseconds. -/
def adjustTarget (confirmed : ChunkSize) (observed : Option Nat) (targetDuration : Nat)
    (bounds : AdaptiveBounds) : ChunkSize :=
  match observed with
  | none => confirmed
  | some observed =>
    let tolerance := targetDuration / 5
    let step := max (confirmed.get / 8) 1
    if observed < targetDuration - tolerance then
      bounds.clamp (min (confirmed.get + step) (2 ^ 32 - 1))
    else if targetDuration + tolerance < observed then bounds.clamp (confirmed.get - step)
    else confirmed

/-- A step from a target within the bounds stays within them. -/
private theorem within_adjustTarget {bounds : AdaptiveBounds} {confirmed : ChunkSize}
    (within : bounds.Within confirmed) (observed : Option Nat) (targetDuration : Nat) :
    bounds.Within (adjustTarget confirmed observed targetDuration bounds) := by
  cases observed with
  | none => exact within
  | some observed =>
    dsimp only [adjustTarget]
    split
    · exact bounds.within_clamp _
    · split
      · exact bounds.within_clamp _
      · exact within

section Codec

/-- `AdaptiveDecision`. -/
structure AdaptiveDecision where
  target : ChunkSize

variable {Checksum : Type} (format : StateFormat Checksum)

/-- The document of a decision. -/
def AdaptiveDecision.toJson (decision : AdaptiveDecision) : Json :=
  .object [("target_items", .integer decision.target.get)]

/-- The decision of a document; `u32::try_from` is part of the size's constructor. -/
def AdaptiveDecision.fromJson (value : Json) : Except StateCodecError AdaptiveDecision :=
  ((((value.asObject.bind (Json.member? "target_items")).bind Json.asU64).bind chunkSize).map
    AdaptiveDecision.mk).elim (.error .invalidPayload) .ok

/-- `adaptive_decision_codec`. -/
def adaptiveDecisionCodec : ComponentStateCodec AdaptiveDecision where
  schemaId := ⟨"oxide-batch.completion.adaptive-decision", Eq.refl true⟩
  currentVersion := 1
  upgrades := []
  codecId := ⟨"oxide-batch.completion.adaptive-decision-codec", Eq.refl true⟩
  codecVersion := 1
  codecUpgrades := []
  encode decision := .ok decision.toJson.toBytes
  decode bytes := (format.fromSlice bytes).elim (.error .invalidPayload) AdaptiveDecision.fromJson

end Codec

/-- `AdaptiveInterior`. The clock's times are nanoseconds. -/
structure AdaptiveInterior where
  confirmed : ChunkSize
  pending : Option ChunkSize
  chunkStarted : Option Int

/-- What an adaptive policy is configured with; its limits are the default ones. -/
structure AdaptiveCompletionPolicy where
  identity : ComponentStreamIdentity
  bounds : AdaptiveBounds
  targetDuration : ChunkTimeThreshold

inductive StreamOpenOutcome where
  | initial
  | restored
  deriving DecidableEq

namespace AdaptiveCompletionPolicy

variable {Checksum : Type} (format : StateFormat Checksum) (policy : AdaptiveCompletionPolicy)

/-- The interior `AdaptiveCompletionPolicy::new` starts with. -/
def new : AdaptiveInterior := ⟨policy.bounds.min, none, none⟩

def beginChunk (now : Int) (state : AdaptiveInterior) : AdaptiveInterior :=
  { state with pending := none, chunkStarted := some now }

def isComplete (itemsRead : Nat) (state : AdaptiveInterior) : Bool :=
  state.confirmed.get ≤ itemsRead

def endChunk (outcome : ChunkAttemptOutcome) (state : AdaptiveInterior) : AdaptiveInterior :=
  match outcome, state.pending with
  | .committed, some pending => { state with confirmed := pending, pending := none }
  | _, _ => { state with pending := none }

/-- `ItemStream::open`; the error of a stream that does not open carries nothing. -/
def openStream (inherited : Option (Core.ComponentStateEnvelope Checksum)) (state : AdaptiveInterior) :
    Except Unit StreamOpenOutcome × AdaptiveInterior :=
  match inherited with
  | none => (.ok .initial, state)
  | some envelope =>
    match envelope.decode format (adaptiveDecisionCodec format) with
    | .error _ => (.error (), state)
    | .ok decoded => (.ok .restored, { state with confirmed := decoded.target, pending := none })

/-- The time since an attempt began; a clock that went back shows none. -/
def elapsed (now : Int) (state : AdaptiveInterior) : Option Nat :=
  state.chunkStarted.map fun started => (now - started).toNat

/-- The candidate of an update. -/
def nextTarget (now : Int) (state : AdaptiveInterior) : ChunkSize :=
  adjustTarget state.confirmed (elapsed now state) policy.targetDuration.get policy.bounds

/-- `ItemStream::update`. -/
def update (now : Int) (state : AdaptiveInterior) :
    Except ComponentStateError (Core.ComponentStateEnvelope Checksum) × AdaptiveInterior :=
  (Core.ComponentStateEnvelope.encode format policy.identity ⟨policy.nextTarget now state⟩
    (adaptiveDecisionCodec format) StateLimits.default,
    { state with pending := some (policy.nextTarget now state) })

/-- What can be asked of a policy and of its stream; a restart builds the policy anew. -/
inductive Call (Checksum : Type) where
  | openStream (inherited : Option (Core.ComponentStateEnvelope Checksum))
  | beginChunk (now : Int)
  | isComplete (itemsRead : Nat)
  | update (now : Int)
  | endChunk (outcome : ChunkAttemptOutcome)
  | restart

def step (state : AdaptiveInterior) : Call Checksum → AdaptiveInterior
  | .openStream inherited => (openStream format inherited state).2
  | .beginChunk now => beginChunk now state
  | .isComplete _ => state
  | .update now => (policy.update format now state).2
  | .endChunk outcome => endChunk outcome state
  | .restart => policy.new

def run (calls : List (Call Checksum)) : AdaptiveInterior :=
  calls.foldl (policy.step format) policy.new

/-- A call that neither begins nor ends an attempt, updates no candidate and restores no
state. -/
def Call.Idle : Call Checksum → Prop
  | .openStream none => True
  | .openStream (some envelope) =>
    ∀ decision, envelope.decode format (adaptiveDecisionCodec format) ≠ .ok decision
  | .isComplete _ => True
  | _ => False

/-- A call that restores no target outside the bounds. -/
def Call.Fits : Call Checksum → Prop
  | .openStream (some envelope) =>
    ∀ decision, envelope.decode format (adaptiveDecisionCodec format) = .ok decision →
      policy.bounds.Within decision.target
  | _ => True

/-- `serde_json` reads the document of a decision back. -/
def ReadsBack : Prop :=
  ∀ decision : AdaptiveDecision,
    format.fromSlice decision.toJson.toBytes = some decision.toJson

variable {format policy}

theorem run_append (before after : List (Call Checksum)) :
    policy.run format (before ++ after) =
      after.foldl (policy.step format) (policy.run format before) :=
  List.foldl_append

private theorem run_snoc (before : List (Call Checksum)) (call : Call Checksum) :
    policy.run format (before ++ [call]) =
      policy.step format (policy.run format before) call := by
  rw [run_append]
  rfl

section Bounds

/-- Targets within the bounds: the confirmed one and the candidate. -/
def Bounded (policy : AdaptiveCompletionPolicy) (state : AdaptiveInterior) : Prop :=
  policy.bounds.Within state.confirmed ∧ ∀ target ∈ state.pending, policy.bounds.Within target

private theorem new_bounded : policy.Bounded policy.new :=
  ⟨policy.bounds.within_min, by simp [new]⟩

private theorem openStream_bounded {inherited : Option (Core.ComponentStateEnvelope Checksum)}
    {state : AdaptiveInterior} (bounded : policy.Bounded state)
    (fits : Call.Fits format policy (.openStream inherited)) :
    policy.Bounded (openStream format inherited state).2 := by
  cases inherited with
  | none => exact bounded
  | some envelope =>
    simp only [openStream]
    cases decoded : envelope.decode format (adaptiveDecisionCodec format) with
    | error error => exact bounded
    | ok decision => exact ⟨fits decision decoded, by simp⟩

private theorem endChunk_bounded {outcome : ChunkAttemptOutcome} {state : AdaptiveInterior}
    (bounded : policy.Bounded state) : policy.Bounded (endChunk outcome state) := by
  unfold endChunk
  split
  · rename_i pending held
    exact ⟨bounded.2 pending held, by simp⟩
  · exact ⟨bounded.1, by simp⟩

private theorem step_bounded {state : AdaptiveInterior} {call : Call Checksum}
    (bounded : policy.Bounded state) (fits : call.Fits format policy) :
    policy.Bounded (policy.step format state call) := by
  cases call with
  | openStream inherited => exact openStream_bounded bounded fits
  | beginChunk now => exact ⟨bounded.1, by simp [step, beginChunk]⟩
  | isComplete itemsRead => exact bounded
  | update now =>
    refine ⟨bounded.1, ?_⟩
    intro target held
    cases held
    exact within_adjustTarget bounded.1 _ _
  | endChunk outcome => exact endChunk_bounded bounded
  | restart => exact new_bounded

private theorem run_bounded {calls : List (Call Checksum)}
    (fits : ∀ call ∈ calls, call.Fits format policy) :
    policy.Bounded (policy.run format calls) := by
  induction calls using List.reverseRecOn with
  | nil => exact new_bounded
  | append_singleton before call ih =>
    rw [run_snoc]
    exact step_bounded (ih fun earlier member => fits earlier (by simp [member]))
      (fits call (by simp))

/-- A restored target is the confirmed one at once. -/
private theorem step_restored {state : AdaptiveInterior} {decision : AdaptiveDecision}
    {envelope : Core.ComponentStateEnvelope Checksum}
    (decoded : envelope.decode format (adaptiveDecisionCodec format) = .ok decision) :
    (policy.step format state (.openStream (some envelope))).confirmed = decision.target := by
  simp only [step, openStream, decoded]

private theorem fits_of_within {state : AdaptiveInterior} {call : Call Checksum}
    (within : policy.bounds.Within (policy.step format state call).confirmed) :
    call.Fits format policy := by
  cases call with
  | openStream inherited =>
    cases inherited with
    | none => trivial
    | some envelope =>
      intro decision decoded
      rw [step_restored decoded] at within
      exact within
  | _ => trivial

/-- The target is within the bounds throughout a run exactly if every target the run
restores is. -/
private theorem always_within_iff (calls : List (Call Checksum)) :
    (∀ before, before <+: calls → policy.bounds.Within (policy.run format before).confirmed) ↔
      ∀ call ∈ calls, call.Fits format policy := by
  constructor
  · intro within call member
    obtain ⟨before, after, rfl⟩ := List.append_of_mem member
    have reached := within (before ++ [call]) ⟨after, by simp⟩
    rw [run_snoc] at reached
    exact fits_of_within reached
  · intro fits before shorter
    exact (run_bounded fun call member => fits call (shorter.subset member)).1

end Bounds

section Durable

theorem fromJson_toJson (decision : AdaptiveDecision) :
    AdaptiveDecision.fromJson decision.toJson = .ok decision := by
  have small : decision.target.get < 2 ^ 64 := lt_trans decision.target.within (by decide)
  have found : (decision.toJson.asObject.bind (Json.member? "target_items")) =
      some (.integer decision.target.get) := by
    simp [AdaptiveDecision.toJson, Json.asObject]
  rw [AdaptiveDecision.fromJson, found, Option.bind_some, Json.asU64_natCast small,
    Option.bind_some, chunkSize_get, Option.map_some, Option.elim_some]

/-- The bytes of a text are at most four for each of its characters. -/
private theorem length_encoded_le (text : List Char) :
    (text.flatMap String.utf8EncodeChar).length ≤ 4 * text.length := by
  induction text with
  | nil => simp
  | cons character text ih =>
    have size := character.utf8Size_le_four
    simp only [List.flatMap_cons, List.length_append, String.length_utf8EncodeChar,
      List.length_cons]
    omega

/-- What stands in front of the target in the document of a decision. -/
def opening : List Char := "\x7b\"target_items\":".toList

private theorem render_toJson (decision : AdaptiveDecision) :
    decision.toJson.render =
      opening ++ (Nat.toDigits 10 decision.target.get ++ [Char.ofNat 125]) := by
  have digits : (toString (decision.target.get : Int)).toList =
      Nat.toDigits 10 decision.target.get := by
    change (Nat.repr decision.target.get).toList = _
    exact Nat.toList_repr
  have key : Char.ofNat 123 :: (Json.quote "target_items" ++ [':']) = opening := by decide
  simp only [AdaptiveDecision.toJson, Json.render, Json.renderMembers, digits, ← key,
    List.cons_append, List.append_assoc, List.nil_append]

private theorem short_toBytes (decision : AdaptiveDecision) :
    decision.toJson.toBytes.length ≤ StateLimits.default.bytes := by
  have digits : (Nat.toDigits 10 decision.target.get).length ≤ 10 := by
    rw [Nat.length_toDigits_le_iff (by decide) (by decide)]
    exact lt_trans decision.target.within (by decide)
  have bytes := length_encoded_le decision.toJson.render
  have start : opening.length = 16 := by decide
  rw [render_toJson, List.length_append, List.length_append, start, List.length_singleton,
    ← render_toJson] at bytes
  have limit : StateLimits.default.bytes = 65536 := rfl
  unfold Json.toBytes
  omega

/-- The envelope of a decision. -/
def sealedDecision (format : StateFormat Checksum) (policy : AdaptiveCompletionPolicy)
    (decision : AdaptiveDecision) : Core.ComponentStateEnvelope Checksum :=
  .stamped format policy.identity (adaptiveDecisionCodec format).schemaId
    (adaptiveDecisionCodec format).currentVersion (adaptiveDecisionCodec format).codecId
    (adaptiveDecisionCodec format).codecVersion .current (.inline decision.toJson.toBytes)

/-- Every decision is encoded. -/
private theorem encode_decision (reads : ReadsBack format) (decision : AdaptiveDecision) :
    Core.ComponentStateEnvelope.encode format policy.identity decision
      (adaptiveDecisionCodec format) StateLimits.default =
        .ok (sealedDecision format policy decision) := by
  have fits : Fits format StateLimits.default decision.toJson.toBytes :=
    ⟨short_toBytes decision, decision.toJson, reads decision, by simp [AdaptiveDecision.toJson,
      Json.asObject], by simp [AdaptiveDecision.toJson, Json.depth, Json.deepestMember,
        StateLimits.default]⟩
  have checked : decision.toJson.toBytes.length ≤ StateLimits.default.bytes ∧
      checkPayload format .invalidPayload StateLimits.default decision.toJson.toBytes = .ok () :=
    checkPayload_ok.mpr fits
  simp only [Core.ComponentStateEnvelope.encode, bind_ok, mapError_ok, refuse_ok, pure_ok, not_lt]
  exact ⟨_, rfl, (), checked.1, (), checked.2, rfl⟩

private theorem codec_decode (reads : ReadsBack format) (decision : AdaptiveDecision) :
    (adaptiveDecisionCodec format).decode decision.toJson.toBytes = .ok decision := by
  have opened : (adaptiveDecisionCodec format).decode decision.toJson.toBytes =
      (format.fromSlice decision.toJson.toBytes).elim (.error .invalidPayload)
        AdaptiveDecision.fromJson := rfl
  rw [opened, reads decision, Option.elim_some, fromJson_toJson]

private theorem sealedDecision_current (format : StateFormat Checksum)
    (decision : AdaptiveDecision) :
    (sealedDecision format policy decision).Current (adaptiveDecisionCodec format) :=
  ⟨rfl, rfl⟩

private theorem sealedDecision_compatible (format : StateFormat Checksum)
    (decision : AdaptiveDecision) :
    (sealedDecision format policy decision).Compatible (adaptiveDecisionCodec format) :=
  .of_current (sealedDecision_current format decision) rfl rfl

/-- A decision is read back from its envelope. -/
private theorem decode_decision (reads : ReadsBack format) (decision : AdaptiveDecision) :
    (sealedDecision format policy decision).decode format (adaptiveDecisionCodec format) =
      .ok decision := by
  have payload : (sealedDecision format policy decision).payload =
      .inline decision.toJson.toBytes := rfl
  rw [Core.ComponentStateEnvelope.decode_inline payload (sealedDecision_compatible format decision)
    (Core.ComponentStateEnvelope.migrate_ok.mp
      (Core.ComponentStateEnvelope.migrate_current (sealedDecision_current format decision))),
    codec_decode reads]
  rfl

private theorem endChunk_unchanged {outcome : ChunkAttemptOutcome} (other : outcome ≠ .committed)
    (state : AdaptiveInterior) : (endChunk outcome state).confirmed = state.confirmed := by
  unfold endChunk
  split
  · contradiction
  · rfl

theorem step_idle {call : Call Checksum} (idle : call.Idle format) (state : AdaptiveInterior) :
    policy.step format state call = state := by
  cases call with
  | openStream inherited =>
    cases inherited with
    | none => rfl
    | some envelope =>
      simp only [step, openStream]
      cases decoded : envelope.decode format (adaptiveDecisionCodec format) with
      | error error => rfl
      | ok decision => exact absurd decoded (idle decision)
  | isComplete itemsRead => rfl
  | _ => exact idle.elim

private theorem run_idle {calls : List (Call Checksum)} (idle : ∀ call ∈ calls, call.Idle format)
    (state : AdaptiveInterior) : calls.foldl (policy.step format) state = state := by
  induction calls with
  | nil => rfl
  | cons call calls ih =>
    rw [List.foldl_cons, step_idle (idle call List.mem_cons_self)]
    exact ih fun later member => idle later (List.mem_cons_of_mem _ member)

/-- A committed attempt confirms the candidate of its last update. -/
private theorem confirmed_of_committed (before after : List (Call Checksum)) (now : Int)
    (idle : ∀ call ∈ after, call.Idle format) :
    (policy.run format (before ++ .update now :: after ++ [.endChunk .committed])).confirmed =
      policy.nextTarget now (policy.run format before) := by
  rw [run_snoc, run_append, List.foldl_cons, run_idle idle]
  rfl

/-- The target stays within the bounds throughout a run exactly if every restored target
is. An attempt that did not commit leaves it as it was, and one that committed leaves the
target of the envelope its last update returned. -/
theorem adaptive_target_durable (reads : ReadsBack format) (policy : AdaptiveCompletionPolicy)
    (calls : List (Call Checksum)) :
    ((∀ before, before <+: calls → policy.bounds.Within (policy.run format before).confirmed) ↔
      ∀ call ∈ calls, call.Fits format policy) ∧
    (∀ before outcome, before ++ [.endChunk outcome] <+: calls → outcome ≠ .committed →
      (policy.run format (before ++ [.endChunk outcome])).confirmed =
        (policy.run format before).confirmed) ∧
    (∀ before now after, before ++ .update now :: after ++ [.endChunk .committed] <+: calls →
      (∀ call ∈ after, call.Idle format) →
      ∃ envelope, (policy.update format now (policy.run format before)).1 = .ok envelope ∧
        envelope.decode format (adaptiveDecisionCodec format) =
          .ok ⟨(policy.run format
            (before ++ .update now :: after ++ [.endChunk .committed])).confirmed⟩) := by
  refine ⟨always_within_iff calls, ?_, ?_⟩
  · intro before outcome _ other
    rw [run_snoc]
    exact endChunk_unchanged other _
  · intro before now after _ idle
    refine ⟨sealedDecision format policy ⟨policy.nextTarget now (policy.run format before)⟩,
      encode_decision reads _, ?_⟩
    rw [confirmed_of_committed before after now idle]
    exact decode_decision reads _

end Durable

section Sample

/-- The number a run of digits stands for. -/
def digitsValue (bytes : List UInt8) (initial : Nat) : Nat :=
  bytes.foldl (fun value byte => 10 * value + (byte.toNat - 48)) initial

/-- A reader of the documents of decisions; it keeps the bytes under a checksum themselves. -/
def decisionSerde : StateFormat (List UInt8) where
  fromSlice bytes :=
    (chunkSize (digitsValue (bytes.drop 16).dropLast 0)).bind fun size =>
      if (AdaptiveDecision.mk size).toJson.toBytes = bytes then
        some (AdaptiveDecision.mk size).toJson
      else none
  sha256 bytes := bytes

private theorem encoded_digit {digit : Char} (isDigit : digit.isDigit) :
    ∃ byte : UInt8, String.utf8EncodeChar digit = [byte] ∧ byte.toNat = digit.toNat := by
  simp only [Char.isDigit, Bool.and_eq_true, decide_eq_true_eq, ge_iff_le,
    UInt32.le_iff_toNat_le] at isDigit
  have atMost : digit.val.toNat ≤ 57 := isDigit.2
  have small : digit.val ≤ 0x7f :=
    UInt32.le_iff_toNat_le.mpr (le_trans atMost (by decide))
  have single : digit.utf8Size = 1 := if_pos small
  refine ⟨_, String.utf8EncodeChar_eq_singleton single, ?_⟩
  have whole : digit.val.toNat % 256 = digit.val.toNat := by omega
  exact whole

private theorem digitsValue_encoded {digits : List Char}
    (allDigits : ∀ digit ∈ digits, digit.isDigit)
    (initial : Nat) :
    digitsValue (digits.flatMap String.utf8EncodeChar) initial =
      Nat.ofDigitChars 10 digits initial := by
  induction digits generalizing initial with
  | nil => rfl
  | cons digit digits ih =>
    obtain ⟨byte, encoded, value⟩ := encoded_digit (allDigits digit List.mem_cons_self)
    have later := ih (fun other member => allDigits other (List.mem_cons_of_mem _ member))
      (10 * initial + (byte.toNat - 48))
    rw [Nat.ofDigitChars_cons, List.flatMap_cons, encoded, ← value]
    exact later

private theorem decisionSerde_readsBack : ReadsBack decisionSerde := by
  intro decision
  have bytes : decision.toJson.toBytes = opening.flatMap String.utf8EncodeChar ++
      ((Nat.toDigits 10 decision.target.get).flatMap String.utf8EncodeChar ++ [125]) := by
    rw [Json.toBytes, render_toJson, List.flatMap_append, List.flatMap_append]
    rfl
  have start : (opening.flatMap String.utf8EncodeChar).length = 16 := by decide
  have middle : (decision.toJson.toBytes.drop 16).dropLast =
      (Nat.toDigits 10 decision.target.get).flatMap String.utf8EncodeChar := by
    rw [bytes, ← start, List.drop_left, List.dropLast_concat]
  have value : digitsValue (decision.toJson.toBytes.drop 16).dropLast 0 =
      decision.target.get := by
    rw [middle, digitsValue_encoded]
    · exact Nat.ofDigitChars_ten_toDigits
    · intro digit member
      exact Nat.isDigit_of_mem_toDigits (by decide) (by decide) member
  simp only [decisionSerde, value, chunkSize_get, Option.bind_some, ↓reduceIte]

/-- A policy that takes between two and four items. -/
def smallPolicy : AdaptiveCompletionPolicy where
  identity := ⟨"completion", Eq.refl true⟩
  bounds := ⟨2, 4, by decide⟩
  targetDuration := ⟨1000000, by decide, by decide⟩

/-- The same policy when it was still allowed nine items. -/
def largePolicy : AdaptiveCompletionPolicy :=
  { smallPolicy with bounds := ⟨9, 9, by decide⟩ }

/-- What the larger policy hands to the commit of its first chunk. -/
def largeState : Core.ComponentStateEnvelope (List UInt8) :=
  sealedDecision decisionSerde largePolicy ⟨largePolicy.bounds.min⟩

/-- A quick chunk that commits: the target rises by one item. -/
theorem quick_chunk_confirmed :
    ∃ envelope, (smallPolicy.update decisionSerde 7
        (smallPolicy.run decisionSerde [.openStream none, .beginChunk 3])).1 = .ok envelope ∧
      envelope.decode decisionSerde (adaptiveDecisionCodec decisionSerde) =
        .ok ⟨(smallPolicy.run decisionSerde ([.openStream none, .beginChunk 3] ++
          .update 7 :: [] ++ [.endChunk .committed])).confirmed⟩ :=
  (adaptive_target_durable decisionSerde_readsBack smallPolicy
    [.openStream none, .beginChunk 3, .update 7, .endChunk .committed]).2.2
    [.openStream none, .beginChunk 3] 7 [] (by simp) (by simp)

/-- State that was written under wider bounds puts the target outside the policy's. -/
theorem restored_target_outside :
    ReadsBack decisionSerde ∧
      (largePolicy.update decisionSerde 7 (largePolicy.run decisionSerde [.beginChunk 3])).1 =
        .ok largeState ∧
      (smallPolicy.run decisionSerde [.openStream (some largeState)]).confirmed =
        largePolicy.bounds.min ∧
      ¬ smallPolicy.bounds.Within
        (smallPolicy.run decisionSerde [.openStream (some largeState)]).confirmed := by
  have restored : (smallPolicy.run decisionSerde [.openStream (some largeState)]).confirmed =
      largePolicy.bounds.min :=
    @step_restored _ _ smallPolicy _ _ _ (decode_decision decisionSerde_readsBack _)
  have kept : largePolicy.nextTarget 7 (largePolicy.run decisionSerde [.beginChunk 3]) =
      largePolicy.bounds.min := by rfl
  refine ⟨decisionSerde_readsBack, ?_, restored, ?_⟩
  · rw [largeState, ← kept]
    exact encode_decision decisionSerde_readsBack _
  · rw [restored]
    decide

end Sample

end AdaptiveCompletionPolicy

end OxideBatch.Completion
