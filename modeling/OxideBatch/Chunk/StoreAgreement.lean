import OxideBatch.Chunk.FaultState

/-! The process-local store and the durable envelope, given the same calls within one
checkpoint generation. They part where a new key meets keys that are resolved but still
retained. -/

namespace OxideBatch.Chunk

open OxideBatch.Core OxideBatch.Lib

/-- A call that reaches a store between two commits. -/
inductive StoreUse where
  | reserve (reservation : RetryReservation)
  | resolve (key : Digest)
  | reservedOrdinal (key : Digest)
  deriving DecidableEq

namespace InMemoryFaultState

def use (state : InMemoryFaultState) : StoreUse → InMemoryFaultState
  | .reserve reservation => (state.reserve reservation).2
  | .resolve key => state.resolve key
  | .reservedOrdinal _ => state

def uses (state : InMemoryFaultState) (calls : List StoreUse) : InMemoryFaultState :=
  calls.foldl use state

private theorem use_limit (state : InMemoryFaultState) (call : StoreUse) :
    (state.use call).limit = state.limit := by
  cases call with
  | reserve reservation =>
    change (state.reserve reservation).2.limit = state.limit
    unfold reserve
    split
    · rfl
    · split
      · rfl
      · split
        · rfl
        · rfl
  | resolve key =>
    change (state.resolve key).limit = state.limit
    unfold resolve
    split
    · rfl
    · rfl
  | reservedOrdinal key => rfl

private theorem uses_limit (state : InMemoryFaultState) (calls : List StoreUse) :
    (state.uses calls).limit = state.limit := by
  induction calls generalizing state with
  | nil => rfl
  | cons call calls ih => exact (ih (state.use call)).trans (state.use_limit call)

/-- The ordinals retained, by key. -/
def ordinals (state : InMemoryFaultState) : List (Digest × Nat) :=
  state.entries.entries.map fun entry => (entry.key, entry.ordinal)

theorem ordinals_put (state : InMemoryFaultState) (entry : RetryEntry) :
    ordinals { state with entries := state.entries.put entry } =
      SortedTable.placed Prod.fst (entry.key, entry.ordinal) state.ordinals :=
  SortedTable.placed_map (fun entry : RetryEntry => (entry.key, entry.ordinal)) Prod.fst
    (fun _ => rfl) entry _

/-- A first reservation for a key that is not retained, while the keys retained, but not
the unresolved ones, have reached the limit. -/
def Crowded (state : InMemoryFaultState) (reservation : RetryReservation) : Prop :=
  reservation.ordinal = 1 ∧ state.reservedOrdinal reservation.key = none ∧
    state.unresolved < state.limit ∧ state.limit ≤ state.entries.entries.length

instance (state : InMemoryFaultState) (reservation : RetryReservation) :
    Decidable (state.Crowded reservation) :=
  inferInstanceAs (Decidable (_ ∧ _))

end InMemoryFaultState

namespace FaultStateRow

/-- The row of an envelope ahead of its first reservation. -/
def new (checkpointDigest : Digest) (limit : Nat) (revision : ClassifierRevision) : FaultStateRow :=
  ⟨.empty, checkpointDigest, limit, revision⟩

def use (row : FaultStateRow) : StoreUse → FaultStateRow
  | .reserve reservation => (row.reserve reservation).2
  | .resolve _ | .reservedOrdinal _ => row

def uses (row : FaultStateRow) (calls : List StoreUse) : FaultStateRow :=
  calls.foldl use row

def ordinals (row : FaultStateRow) : List (Digest × Nat) :=
  row.envelope.entries.entries.map fun entry => (entry.key, entry.ordinal)

theorem ordinals_put (row : FaultStateRow) (digest : Digest) (entry : FaultStateEntry) :
    ordinals { row with envelope := ⟨digest, row.envelope.entries.put entry⟩ } =
      SortedTable.placed Prod.fst (entry.key, entry.ordinal) row.ordinals :=
  SortedTable.placed_map (fun entry : FaultStateEntry => (entry.key, entry.ordinal)) Prod.fst
    (fun _ => rfl) entry _

end FaultStateRow

/-- Both stores retain the same ordinals under the same limit, and the envelope is of the
generation at hand. -/
structure Paired (state : InMemoryFaultState) (row : FaultStateRow) : Prop where
  limits : row.limit = state.limit
  ordinals : row.ordinals = state.ordinals
  generation : row.envelope.entries.entries ≠ [] →
    row.envelope.checkpointDigest = row.checkpointDigest

namespace Paired

variable {state : InMemoryFaultState} {row : FaultStateRow}

theorem initial (checkpointDigest : Digest) (limit : Nat) (revision : ClassifierRevision) :
    Paired (.new limit) (.new checkpointDigest limit revision) where
  limits := rfl
  ordinals := rfl
  generation := fun nonempty => absurd rfl nonempty

theorem reservedOrdinal (paired : Paired state row) (key : Digest) :
    row.envelope.reservedOrdinal key = state.reservedOrdinal key := by
  have alike := SortedTable.lookup_alike row.envelope.entries Prod.fst (fun _ => rfl) (fun _ => rfl)
    paired.ordinals key
  have ordinals := congrArg (Option.map Prod.snd) alike
  rw [Option.map_map, Option.map_map] at ordinals
  exact ordinals

theorem length (paired : Paired state row) :
    row.envelope.entries.entries.length = state.entries.entries.length := by
  have lengths := congrArg List.length paired.ordinals
  simpa [FaultStateRow.ordinals, InMemoryFaultState.ordinals] using lengths

/-- A lookup finds nothing exactly where no ordinal is reserved. -/
theorem absent (paired : Paired state row) (key : Digest) :
    (row.envelope.entries.lookup key).isNone = (state.entries.lookup key).isNone := by
  have same := congrArg Option.isNone (paired.reservedOrdinal key)
  simpa [FaultStateEnvelope.reservedOrdinal, InMemoryFaultState.reservedOrdinal] using same

/-- The envelope of the generation at hand counts every retained key. -/
private theorem row_reserve (paired : Paired state row) (reservation : RetryReservation) :
    (row.reserve reservation).1 =
      match checkedNext ((state.reservedOrdinal reservation.key).getD 0) with
      | none => .error .staleReservation
      | some expected =>
        if reservation.ordinal ≠ expected then .error .staleReservation
        else if (state.entries.lookup reservation.key).isNone ∧
            state.limit ≤ state.entries.entries.length then
          .error (.capacityExhausted state.limit)
        else .ok () := by
  have current : ¬ (row.envelope.entries.entries ≠ [] ∧
      row.envelope.checkpointDigest ≠ row.checkpointDigest) :=
    fun other => other.2 (paired.generation other.1)
  unfold FaultStateRow.reserve FaultStateEnvelope.reserved
  rw [if_neg current]
  simp only [paired.reservedOrdinal, paired.absent, paired.limits, paired.length]
  cases checkedNext ((state.reservedOrdinal reservation.key).getD 0) with
  | none => rfl
  | some expected =>
    by_cases stale : reservation.ordinal ≠ expected
    · simp [stale]
    · by_cases full : (state.entries.lookup reservation.key).isNone ∧
          state.limit ≤ state.entries.entries.length
      · simp [stale, full]
      · simp only [stale, full, if_false]

private theorem memory_reserve (state : InMemoryFaultState) (reservation : RetryReservation) :
    (state.reserve reservation).1 =
      match checkedNext ((state.reservedOrdinal reservation.key).getD 0) with
      | none => .error .staleReservation
      | some expected =>
        if reservation.ordinal ≠ expected then .error .staleReservation
        else if (state.entries.lookup reservation.key).isNone ∧ state.limit ≤ state.unresolved
        then .error (.capacityExhausted state.limit)
        else .ok () := by
  unfold InMemoryFaultState.reserve
  cases checkedNext ((state.reservedOrdinal reservation.key).getD 0) with
  | none => rfl
  | some expected =>
    by_cases stale : reservation.ordinal ≠ expected
    · simp [stale]
    · by_cases full : (state.entries.lookup reservation.key).isNone ∧
          state.limit ≤ state.unresolved
      · simp [stale, full]
      · simp only [stale, full, if_false]

/-- Where the stores part, the process-local one accepts and the envelope has no room. -/
private theorem crowded_parts (paired : Paired state row) {reservation : RetryReservation}
    (crowded : state.Crowded reservation) :
    (state.reserve reservation).1 = .ok () ∧
      (row.reserve reservation).1 = .error (.capacityExhausted state.limit) := by
  obtain ⟨first, new, room, full⟩ := crowded
  have absent : (state.entries.lookup reservation.key).isNone = true := by
    simpa [InMemoryFaultState.reservedOrdinal] using new
  constructor
  · rw [memory_reserve, new]
    simp [checkedNext, maxRetry, first, Nat.not_le.mpr room]
  · rw [paired.row_reserve, new]
    simp [checkedNext, maxRetry, first, absent, full]

/-- Elsewhere they answer alike. -/
private theorem uncrowded_agree (paired : Paired state row) {reservation : RetryReservation}
    (uncrowded : ¬ state.Crowded reservation) :
    (row.reserve reservation).1 = (state.reserve reservation).1 := by
  rw [paired.row_reserve, memory_reserve]
  cases next : checkedNext ((state.reservedOrdinal reservation.key).getD 0) with
  | none => rfl
  | some expected =>
    by_cases stale : reservation.ordinal ≠ expected
    · simp [stale]
    · simp only [stale, if_false]
      by_cases new : (state.entries.lookup reservation.key).isNone = true
      · have unreserved : state.reservedOrdinal reservation.key = none := by
          simpa [InMemoryFaultState.reservedOrdinal] using new
        have first : reservation.ordinal = 1 := by
          rw [unreserved] at next
          rw [not_not.mp stale, checkedNext_eq next]
          rfl
        have counted : state.unresolved ≤ state.entries.entries.length := List.countP_le_length
        have bounds : state.limit ≤ state.entries.entries.length ↔
            state.limit ≤ state.unresolved := by
          constructor
          · intro full
            by_contra room
            exact uncrowded ⟨first, unreserved, Nat.lt_of_not_le room, full⟩
          · intro full
            exact Nat.le_trans full counted
        simp only [new, bounds]
      · simp [new]

/-- The process-local store behind a reservation it accepts. -/
private theorem memory_accepts {reservation : RetryReservation}
    (accepts : (state.reserve reservation).1 = .ok ()) :
    (state.reserve reservation).2 =
      { state with entries := state.entries.put ⟨reservation.key, reservation.ordinal, false⟩ } := by
  unfold InMemoryFaultState.reserve at accepts ⊢
  split at accepts
  · cases accepts
  · split at accepts
    · cases accepts
    · split at accepts
      · cases accepts
      · rename_i next same room
        rw [if_neg same, if_neg room]

private theorem row_accepts {reservation : RetryReservation}
    (accepts : (row.reserve reservation).1 = .ok ()) :
    (row.reserve reservation).2 =
      { row with
        envelope := ⟨row.checkpointDigest, row.envelope.entries.put
          ⟨reservation.key, reservation.phase, reservation.category, reservation.ordinal,
            row.revision⟩⟩ } := by
  unfold FaultStateRow.reserve at accepts ⊢
  split at accepts
  · rename_i next reserved
    unfold FaultStateEnvelope.reserved at reserved
    split at reserved
    · cases reserved
    · split at reserved
      · cases reserved
      · split at reserved
        · cases reserved
        · split at reserved
          · cases reserved
          · cases reserved
            rfl
  · cases accepts

/-- A refused reservation leaves both stores as they are. -/
private theorem memory_refuses {reservation : RetryReservation} {error : FaultStateError}
    (refuses : (state.reserve reservation).1 = .error error) :
    (state.reserve reservation).2 = state := by
  rcases InMemoryFaultState.reserve_cases state reservation with ⟨_, refused⟩ | ⟨_, granted, _⟩
  · rw [refused]
  · rw [granted] at refuses
    cases refuses

private theorem row_refuses {reservation : RetryReservation} {error : FaultStateError}
    (refuses : (row.reserve reservation).1 = .error error) :
    (row.reserve reservation).2 = row := by
  rcases FaultStateRow.reserve_cases row reservation with ⟨_, refused⟩ | ⟨_, granted, _⟩
  · rw [refused]
  · rw [granted] at refuses
    cases refuses

private theorem resolve_ordinals (state : InMemoryFaultState) (key : Digest) :
    (state.resolve key).ordinals = state.ordinals := by
  unfold InMemoryFaultState.resolve
  split
  · rename_i entry found
    have stored : entry ∈ state.entries.entries := List.mem_of_find?_eq_some found
    -- the resolved entry shows the key and the ordinal of the one it replaces
    have replaced := InMemoryFaultState.ordinals_put state { entry with resolved := true }
    have shown := InMemoryFaultState.ordinals_put state entry
    rw [replaced, ← shown]
    exact congrArg (List.map _) (SortedTable.placed_mem state.entries.ascending stored)
  · rfl

theorem use (paired : Paired state row) {call : StoreUse}
    (uncrowded : ∀ reservation, call = .reserve reservation → ¬ state.Crowded reservation) :
    Paired (state.use call) (row.use call) := by
  cases call with
  | reserve reservation =>
    have same := paired.uncrowded_agree (uncrowded reservation rfl)
    cases answer : (state.reserve reservation).1 with
    | error error =>
      have refused : (row.reserve reservation).1 = .error error := same.trans answer
      simp only [InMemoryFaultState.use, FaultStateRow.use, memory_refuses answer,
        row_refuses refused]
      exact paired
    | ok _ =>
      have accepted : (row.reserve reservation).1 = .ok () := same.trans answer
      simp only [InMemoryFaultState.use, FaultStateRow.use, memory_accepts answer,
        row_accepts accepted]
      refine ⟨paired.limits, ?_, fun _ => rfl⟩
      rw [FaultStateRow.ordinals_put, InMemoryFaultState.ordinals_put, paired.ordinals]
  | resolve key =>
    refine ⟨?_, paired.ordinals.trans (resolve_ordinals state key).symm, paired.generation⟩
    simp only [InMemoryFaultState.use, FaultStateRow.use, InMemoryFaultState.resolve]
    split
    · exact paired.limits
    · exact paired.limits
  | reservedOrdinal key => exact paired

end Paired

/-- No reservation of the calls meets a crowded store. -/
def Uncrowded (state : InMemoryFaultState) : List StoreUse → Prop
  | [] => True
  | call :: later =>
    (∀ reservation, call = .reserve reservation → ¬ state.Crowded reservation) ∧
      Uncrowded (state.use call) later

theorem Paired.uses {state : InMemoryFaultState} {row : FaultStateRow} {calls : List StoreUse}
    (paired : Paired state row) (uncrowded : Uncrowded state calls) :
    Paired (state.uses calls) (row.uses calls) := by
  induction calls generalizing state row with
  | nil => exact paired
  | cons call later ih =>
    obtain ⟨here, uncrowded⟩ := uncrowded
    exact ih (paired.use here) uncrowded

/-- Up to the first reservation that meets a crowded store, the stores report the same
ordinals and answer alike; that one the process-local store accepts and the envelope
refuses. -/
theorem stores_agree (checkpointDigest : Digest) (limit : Nat) (revision : ClassifierRevision)
    (calls : List StoreUse) (uncrowded : Uncrowded (.new limit) calls) :
    let state := (InMemoryFaultState.new limit).uses calls
    let row := (FaultStateRow.new checkpointDigest limit revision).uses calls
    (∀ key, state.reservedOrdinal key = row.envelope.reservedOrdinal key) ∧
    ∀ reservation,
      (¬ state.Crowded reservation → (state.reserve reservation).1 = (row.reserve reservation).1) ∧
      (state.Crowded reservation → (state.reserve reservation).1 = .ok () ∧
        (row.reserve reservation).1 = .error (.capacityExhausted limit)) := by
  have paired := (Paired.initial checkpointDigest limit revision).uses uncrowded
  refine ⟨fun key => (paired.reservedOrdinal key).symm, fun reservation => ⟨?_, ?_⟩⟩
  · intro fits
    exact (paired.uncrowded_agree fits).symm
  · intro crowded
    obtain ⟨accepts, refuses⟩ := paired.crowded_parts crowded
    rw [InMemoryFaultState.uses_limit] at refuses
    exact ⟨accepts, refuses⟩

/-- The first retry of the write keyed by a repeated byte. -/
def firstRetry (byte : UInt8) : RetryReservation :=
  ⟨List.replicate 32 byte, .write, .transientInfrastructure, 1⟩

/-- With room for one key, a first key that is resolved but retained leaves no room for a
second in the envelope. -/
theorem resolved_key_crowds :
    let calls := [StoreUse.reserve (firstRetry 1), .resolve (firstRetry 1).key]
    let state := (InMemoryFaultState.new 1).uses calls
    let row := (FaultStateRow.new (List.replicate 32 7) 1 ⟨"v1", by decide⟩).uses calls
    (state.reserve (firstRetry 2)).1 = .ok () ∧
      (row.reserve (firstRetry 2)).1 = .error (.capacityExhausted 1) := by
  have uncrowded : Uncrowded (.new 1)
      [StoreUse.reserve (firstRetry 1), .resolve (firstRetry 1).key] := by
    refine ⟨fun reservation same => ?_, fun reservation same => ?_, trivial⟩
    · cases same
      decide
    · cases same
  have agree := stores_agree (List.replicate 32 7) 1 ⟨"v1", by decide⟩ _ uncrowded
  exact (agree.2 (firstRetry 2)).2 (by decide)

theorem stores_part : ¬ ∀ checkpointDigest limit revision calls reservation,
    (((InMemoryFaultState.new limit).uses calls).reserve reservation).1 =
      (((FaultStateRow.new checkpointDigest limit revision).uses calls).reserve reservation).1 := by
  intro agree
  have same := agree (List.replicate 32 7) 1 ⟨"v1", by decide⟩
    [.reserve (firstRetry 1), .resolve (firstRetry 1).key] (firstRetry 2)
  revert same
  decide

end OxideBatch.Chunk
