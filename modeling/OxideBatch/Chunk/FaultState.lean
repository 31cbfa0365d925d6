import Mathlib
import OxideBatch.Chunk.State
import OxideBatch.Core.FaultPolicy
import OxideBatch.Lib.SortedTable
import OxideBatch.Lib.Tickets

/-! The stores of retry reservations: the process-local map and the durable envelope. -/

namespace OxideBatch.Chunk

open OxideBatch.Core OxideBatch.Lib

/-- Bytes by value, so that keys compare as the byte arrays they are. -/
instance orderUInt8 : LinearOrder UInt8 where
  le_refl := UInt8.le_refl
  le_trans _ _ _ := UInt8.le_trans
  le_antisymm _ _ := UInt8.le_antisymm
  le_total := UInt8.le_total
  lt_iff_le_not_ge _ _ := by
    rw [UInt8.lt_iff_toNat_lt, UInt8.le_iff_toNat_le, UInt8.le_iff_toNat_le]
    omega
  toDecidableLE := inferInstance
  toDecidableLT := inferInstance

/-- A call that reaches the store of a step, with the answer it got. A commit reaches a
durable store too: it replaces the rows the store reads. -/
inductive StoreCall where
  | reservedOrdinal (key : Digest) (answer : Option Nat)
  | reserve (reservation : RetryReservation) (answer : Except FaultStateError Unit)
  | resolve (key : Digest)
  | clearResolved
  | committed (receipt : CommitReceipt)
  deriving DecidableEq

/-- `FaultStateStore`, with the effect of a chunk commit and the calls that drop keys. -/
structure RetryStore (State : Type) where
  reservedOrdinal : State → Digest → Option Nat
  reserve : State → RetryReservation → Except FaultStateError Unit × State
  resolve : State → Digest → State
  clearResolved : State → State
  committed : State → CommitReceipt → State
  clears : StoreCall → Bool

namespace RetryStore

variable {State : Type} (store : RetryStore State)

/-- The last ordinal reserved for a key; zero when there is none. -/
def held (state : State) (key : Digest) : Nat := (store.reservedOrdinal state key).getD 0

/-- The state behind a call, unless the store does not answer it so. A failed read of an
ordinal reaches the runtime as no ordinal. -/
def serve (state : State) : StoreCall → Option State
  | .reservedOrdinal key answer =>
    if answer = none ∨ answer = store.reservedOrdinal state key then some state else none
  | .reserve reservation answer =>
    match store.reserve state reservation, answer with
    | (.ok (), next), .ok () => some next
    | (.error given, next), .error error => if given = error then some next else none
    | _, _ => none
  | .resolve key => some (store.resolve state key)
  | .clearResolved => some (store.clearResolved state)
  | .committed receipt => some (store.committed state receipt)

/-- What a call does to the ordinals. -/
def step (call : StoreCall) : TicketStep Digest :=
  match call with
  | .reserve reservation (.ok ()) => .taken reservation.key reservation.ordinal
  | call => if store.clears call then .cleared else .idle

/-- The reservations of a store count up one by one or leave it as it is, and only a
clearing drops keys. -/
structure Lawful : Prop where
  reserves : ∀ state reservation,
    (∃ error, store.reserve state reservation = (.error error, state)) ∨
    ∃ next, store.reserve state reservation = (.ok (), next) ∧
      reservation.ordinal = store.held state reservation.key + 1 ∧
      store.held next = Function.update (store.held state) reservation.key reservation.ordinal
  resolves : ∀ state key, store.held (store.resolve state key) = store.held state
  clearings : ∀ state, (store.step .clearResolved).Moves (store.held state)
    (store.held (store.clearResolved state))
  commits : ∀ state receipt, (store.step (.committed receipt)).Moves (store.held state)
    (store.held (store.committed state receipt))
  sparing : ∀ call, store.clears call = true →
    call = .clearResolved ∨ ∃ receipt, call = .committed receipt

variable {store}

theorem Lawful.spares (lawful : store.Lawful) {call : StoreCall}
    (plain : call ≠ .clearResolved ∧ ∀ receipt, call ≠ .committed receipt) :
    store.clears call = false := by
  by_contra clears
  rcases lawful.sparing call (Bool.of_not_eq_false clears) with same | ⟨receipt, same⟩
  · exact plain.1 same
  · exact plain.2 receipt same

/-- A call that neither grants nor clears is idle. -/
theorem Lawful.step_idle (lawful : store.Lawful) {call : StoreCall}
    (plain : call ≠ .clearResolved ∧ ∀ receipt, call ≠ .committed receipt)
    (ungranted : ∀ reservation, call ≠ .reserve reservation (.ok ())) :
    store.step call = .idle := by
  unfold step
  split
  · exact absurd rfl (ungranted _)
  · rw [lawful.spares plain]
    rfl

/-- Every call a lawful store serves moves the ordinals as its step says. -/
theorem Lawful.moves (lawful : store.Lawful) {state next : State} {call : StoreCall}
    (served : store.serve state call = some next) :
    (store.step call).Moves (store.held state) (store.held next) := by
  cases call with
  | reservedOrdinal key answer =>
    have same : state = next := by
      simp only [serve, Option.ite_none_right_eq_some, Option.some_inj] at served
      exact served.2
    rw [lawful.step_idle (by simp) (by simp), same]
    exact rfl
  | reserve reservation answer =>
    rcases lawful.reserves state reservation with ⟨error, refused⟩ | ⟨_, granted, ordinal, held⟩
    · cases answer with
      | ok _ => simp [serve, refused] at served
      | error answer =>
        simp only [serve, refused, Option.ite_none_right_eq_some, Option.some_inj] at served
        rw [lawful.step_idle (by simp) (by simp), served.2]
        exact rfl
    · cases answer with
      | ok _ =>
        simp only [serve, granted, Option.some_inj] at served
        exact ⟨ordinal, served ▸ held⟩
      | error answer => simp [serve, granted] at served
  | resolve key =>
    rw [lawful.step_idle (by simp) (by simp), ← Option.some_inj.mp served]
    exact lawful.resolves state key
  | clearResolved =>
    rw [← Option.some_inj.mp served]
    exact lawful.clearings state
  | committed receipt =>
    rw [← Option.some_inj.mp served]
    exact lawful.commits state receipt

/-- A refused reservation leaves the state as it is. -/
theorem Lawful.refused (lawful : store.Lawful) {state next : State}
    {reservation : RetryReservation} {error : FaultStateError}
    (served : store.serve state (.reserve reservation (.error error)) = some next) :
    next = state := by
  rcases lawful.reserves state reservation with ⟨given, refused⟩ | ⟨_, granted, _⟩
  · simp only [serve, refused, Option.ite_none_right_eq_some, Option.some_inj] at served
    exact served.2.symm
  · simp [serve, granted] at served

end RetryStore

section Memory

/-- `RetryEntry` under its key. -/
structure RetryEntry where
  key : Digest
  ordinal : Nat
  resolved : Bool
  deriving DecidableEq

structure InMemoryFaultState where
  limit : Nat
  entries : SortedTable RetryEntry.key

namespace InMemoryFaultState

def new (limit : Nat) : InMemoryFaultState := ⟨limit, .empty⟩

def reservedOrdinal (state : InMemoryFaultState) (key : Digest) : Option Nat :=
  (state.entries.lookup key).map (·.ordinal)

def unresolved (state : InMemoryFaultState) : Nat := state.entries.entries.countP (!·.resolved)

/-- `reserve`. -/
def reserve (state : InMemoryFaultState) (reservation : RetryReservation) :
    Except FaultStateError Unit × InMemoryFaultState :=
  match checkedNext ((state.reservedOrdinal reservation.key).getD 0) with
  | none => (.error .staleReservation, state)
  | some expected =>
    if reservation.ordinal ≠ expected then (.error .staleReservation, state)
    else if (state.entries.lookup reservation.key).isNone ∧ state.limit ≤ state.unresolved then
      (.error (.capacityExhausted state.limit), state)
    else
      (.ok (),
        { state with entries := state.entries.put ⟨reservation.key, reservation.ordinal, false⟩ })

def resolve (state : InMemoryFaultState) (key : Digest) : InMemoryFaultState :=
  match state.entries.lookup key with
  | some entry => { state with entries := state.entries.put { entry with resolved := true } }
  | none => state

def clearResolved (state : InMemoryFaultState) : InMemoryFaultState :=
  { state with entries := state.entries.retain (!·.resolved) }

end InMemoryFaultState

/-- The process-local store: a commit does not reach it. -/
def memoryStore : RetryStore InMemoryFaultState where
  reservedOrdinal := InMemoryFaultState.reservedOrdinal
  reserve := InMemoryFaultState.reserve
  resolve := InMemoryFaultState.resolve
  clearResolved := InMemoryFaultState.clearResolved
  committed state _ := state
  clears
    | .clearResolved => true
    | _ => false

theorem checkedNext_eq {ordinal next : Nat} (found : checkedNext ordinal = some next) :
    next = ordinal + 1 := by
  unfold checkedNext at found
  split at found
  · exact (Option.some_inj.mp found).symm
  · cases found

namespace InMemoryFaultState

/-- Writing an entry moves the ordinal of its key and of no other. -/
theorem held_put (state : InMemoryFaultState) (entry : RetryEntry) :
    memoryStore.held { state with entries := state.entries.put entry } =
      Function.update (memoryStore.held state) entry.key entry.ordinal := by
  funext key
  change ((SortedTable.lookup (state.entries.put entry) key).map (·.ordinal)).getD 0 = _
  rw [SortedTable.lookup_put]
  by_cases here : entry.key = key
  · subst here
    simp
  · rw [if_neg here, Function.update_of_ne (Ne.symm here)]
    rfl

/-- A reservation takes the next ordinal of its key, or leaves the state as it is. -/
theorem reserve_cases (state : InMemoryFaultState) (reservation : RetryReservation) :
    (∃ error, state.reserve reservation = (.error error, state)) ∨
    ∃ next, state.reserve reservation = (.ok (), next) ∧
      reservation.ordinal = memoryStore.held state reservation.key + 1 ∧
      memoryStore.held next =
        Function.update (memoryStore.held state) reservation.key reservation.ordinal := by
  unfold reserve
  split
  · exact .inl ⟨_, rfl⟩
  · rename_i expected next
    split
    · exact .inl ⟨_, rfl⟩
    · rename_i same
      split
      · exact .inl ⟨_, rfl⟩
      · refine .inr ⟨_, rfl, ?_, held_put state _⟩
        rw [not_not.mp same]
        exact checkedNext_eq next

private theorem held_resolve (state : InMemoryFaultState) (key : Digest) :
    memoryStore.held (state.resolve key) = memoryStore.held state := by
  unfold resolve
  split
  · rename_i entry found
    rw [held_put]
    have ordinal : memoryStore.held state entry.key = entry.ordinal := by
      rw [SortedTable.key_of_lookup _ found]
      simp [RetryStore.held, memoryStore, reservedOrdinal, found]
    rw [← ordinal]
    exact Function.update_eq_self _ _
  · rfl

private theorem held_clearResolved (state : InMemoryFaultState) (key : Digest) :
    memoryStore.held state.clearResolved key = memoryStore.held state key ∨
      memoryStore.held state.clearResolved key = 0 := by
  have cleared : memoryStore.held state.clearResolved key =
      (((state.entries.lookup key).filter (!·.resolved)).map (·.ordinal)).getD 0 := by
    rw [← SortedTable.lookup_retain]
    rfl
  rw [cleared]
  cases found : state.entries.lookup key with
  | none => exact .inr rfl
  | some entry =>
    by_cases resolved : entry.resolved = true
    · right
      simp [Option.filter, resolved]
    · left
      simp [Option.filter, resolved, RetryStore.held, memoryStore, reservedOrdinal, found]

end InMemoryFaultState

theorem memoryStore_lawful : memoryStore.Lawful where
  reserves := InMemoryFaultState.reserve_cases
  resolves := InMemoryFaultState.held_resolve
  clearings := InMemoryFaultState.held_clearResolved
  commits _ _ := rfl
  sparing := by
    intro call clears
    cases call with
    | clearResolved => exact .inl rfl
    | _ => cases clears

end Memory

section Envelope

structure FaultStateEntry where
  key : Digest
  phase : FaultPhase
  category : FailureCategory
  ordinal : Nat
  revision : ClassifierRevision
  deriving DecidableEq

structure FaultStateEnvelope where
  checkpointDigest : Digest
  entries : SortedTable FaultStateEntry.key

namespace FaultStateEnvelope

/-- `FaultStateEnvelope::empty`. -/
def empty : FaultStateEnvelope := ⟨List.replicate 32 0, .empty⟩

def reservedOrdinal (envelope : FaultStateEnvelope) (key : Digest) : Option Nat :=
  (envelope.entries.lookup key).map (·.ordinal)

/-- `FaultStateEnvelope::reserved`. -/
def reserved (envelope : FaultStateEnvelope) (entry : FaultStateEntry) (checkpointDigest : Digest)
    (limit : Nat) : Except FaultStateError FaultStateEnvelope :=
  if envelope.entries.entries ≠ [] ∧ envelope.checkpointDigest ≠ checkpointDigest then
    .error (.corrupt .checkpointMismatch)
  else
    match checkedNext ((envelope.reservedOrdinal entry.key).getD 0) with
    | none => .error .staleReservation
    | some expected =>
      if entry.ordinal ≠ expected then .error .staleReservation
      else if (envelope.entries.lookup entry.key).isNone ∧ limit ≤ envelope.entries.entries.length
      then .error (.capacityExhausted limit)
      else .ok ⟨checkpointDigest, envelope.entries.put entry⟩

end FaultStateEnvelope

/-- The row a durable store advances: the envelope, the generation digest of the committed
checkpoint, and what the store was built with. -/
structure FaultStateRow where
  envelope : FaultStateEnvelope
  checkpointDigest : Digest
  limit : Nat
  revision : ClassifierRevision

namespace FaultStateRow

def reserve (row : FaultStateRow) (reservation : RetryReservation) :
    Except FaultStateError Unit × FaultStateRow :=
  match row.envelope.reserved
      ⟨reservation.key, reservation.phase, reservation.category, reservation.ordinal, row.revision⟩
      row.checkpointDigest row.limit with
  | .ok next => (.ok (), { row with envelope := next })
  | .error error => (.error error, row)

end FaultStateRow

/-- The durable store: keys stay until the commit that replaces the envelope. -/
def envelopeStore : RetryStore FaultStateRow where
  reservedOrdinal row := row.envelope.reservedOrdinal
  reserve := FaultStateRow.reserve
  resolve row _ := row
  clearResolved row := row
  committed row receipt :=
    { row with envelope := .empty, checkpointDigest := receipt.checkpointDigest }
  clears
    | .committed _ => true
    | _ => false

namespace FaultStateRow

theorem held_put (row : FaultStateRow) (entry : FaultStateEntry) (digest : Digest) :
    envelopeStore.held { row with envelope := ⟨digest, row.envelope.entries.put entry⟩ } =
      Function.update (envelopeStore.held row) entry.key entry.ordinal := by
  funext key
  change ((SortedTable.lookup (row.envelope.entries.put entry) key).map (·.ordinal)).getD 0 = _
  rw [SortedTable.lookup_put]
  by_cases here : entry.key = key
  · subst here
    simp
  · rw [if_neg here, Function.update_of_ne (Ne.symm here)]
    rfl

theorem reserve_cases (row : FaultStateRow) (reservation : RetryReservation) :
    (∃ error, row.reserve reservation = (.error error, row)) ∨
    ∃ next, row.reserve reservation = (.ok (), next) ∧
      reservation.ordinal = envelopeStore.held row reservation.key + 1 ∧
      envelopeStore.held next =
        Function.update (envelopeStore.held row) reservation.key reservation.ordinal := by
  unfold reserve
  split
  · rename_i next reserved
    unfold FaultStateEnvelope.reserved at reserved
    split at reserved
    · cases reserved
    · split at reserved
      · cases reserved
      · rename_i expected next
        split at reserved
        · cases reserved
        · rename_i same
          split at reserved
          · cases reserved
          · cases reserved
            refine .inr ⟨_, rfl, ?_, held_put row _ _⟩
            exact (not_not.mp same).trans (checkedNext_eq next)
  · exact .inl ⟨_, rfl⟩

end FaultStateRow

theorem envelopeStore_lawful : envelopeStore.Lawful where
  reserves := FaultStateRow.reserve_cases
  resolves _ _ := rfl
  clearings _ := rfl
  commits _ _ _ := .inr rfl
  sparing := by
    intro call clears
    cases call with
    | committed receipt => exact .inr ⟨receipt, rfl⟩
    | _ => cases clears

end Envelope

end OxideBatch.Chunk
