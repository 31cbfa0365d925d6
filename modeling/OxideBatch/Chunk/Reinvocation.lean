import OxideBatch.Chunk.FaultState
import OxideBatch.Chunk.FaultLedger

/-! The component calls that a run makes again behind a failure: whatever the components and
the store answer, each is paid for by a retry that the store granted to its unit of work. -/

namespace OxideBatch.Chunk

open OxideBatch.Core OxideBatch.Lib Program

variable {I O : Type}

section Grants

/-- The call an event makes on the store of the step. -/
def Event.storeCall (event : Event I O) : Option StoreCall :=
  match event with
  | ⟨.reservedOrdinal key, answer⟩ => some (.reservedOrdinal key answer)
  | ⟨.reserve reservation, answer⟩ => some (.reserve reservation answer)
  | ⟨.resolve key, _⟩ => some (.resolve key)
  | ⟨.clearResolved, _⟩ => some .clearResolved
  | ⟨.commit _ _ _ _, .ok receipt⟩ => some (.committed receipt)
  | _ => none

def storeCalls (trace : Trace I O) : List StoreCall := trace.filterMap Event.storeCall

theorem storeCalls_append (before after : Trace I O) :
    storeCalls (before ++ after) = storeCalls before ++ storeCalls after :=
  List.filterMap_append

/-- The ordinal a call was granted for a key. -/
def StoreCall.grantOf (key : Digest) (call : StoreCall) : Option Nat :=
  match call with
  | .reserve reservation (.ok ()) =>
    if reservation.key = key then some reservation.ordinal else none
  | _ => none

/-- The ordinals granted for a key, in order. -/
def granted (key : Digest) (calls : List StoreCall) : List Nat :=
  calls.filterMap (·.grantOf key)

/-- Whether an event is a successful commit, the end of a checkpoint generation. -/
def Event.endsGeneration (event : Event I O) : Bool :=
  match event with
  | ⟨.commit _ _ _ _, .ok _⟩ => true
  | _ => false

def generationStep (generation : Trace I O) (event : Event I O) : Trace I O :=
  if event.endsGeneration then [] else generation ++ [event]

/-- The events behind the last successful commit. -/
def generationOf (trace : Trace I O) : Trace I O := trace.foldl generationStep []

/-- How many retries the store granted for a key in the generation at hand. -/
def grants (key : Digest) (trace : Trace I O) : Nat :=
  (granted key (storeCalls (generationOf trace))).length

end Grants

section Units

/-- A unit of work of a generation: the read of one of its records, the processing of what a
reader call returned, or the write of its chunk. -/
inductive WorkUnit where
  | read (record : Nat)
  | process (call : Nat)
  | write
  deriving DecidableEq

/-- How many records a unit takes when it is skipped. -/
def WorkUnit.taken : WorkUnit → Nat
  | .read _ => 1
  | _ => 0

/-- The unit of work a component is called for, by the records taken before. -/
def Event.unit (records : Nat) (event : Event I O) : Option WorkUnit :=
  match event.query with
  | .read _ => some (.read records)
  | .process call _ => some (.process call)
  | .write _ => some .write
  | _ => none

/-- Whether a component call failed or panicked. -/
def Event.fails (event : Event I O) : Bool :=
  match event with
  | ⟨.read _, .failed _⟩ | ⟨.read _, .panicked⟩ => true
  | ⟨.process _ _, .failed _⟩ | ⟨.process _ _, .panicked⟩ => true
  | ⟨.write _, .failed _⟩ | ⟨.write _, .panicked⟩ => true
  | _ => false

/-- Whether the reader returned a record. -/
def Event.delivers (event : Event I O) : Bool :=
  match event with
  | ⟨.read _, .completed (.item _)⟩ => true
  | _ => false

/-- What a generation has done so far: the records it has taken, the unit whose call was the
last one and failed, the units that failed and are not settled, and each unit called again
behind a failure, as often as it was. -/
structure Labour where
  records : Nat
  failing : Option WorkUnit
  unsettled : List WorkUnit
  retried : List WorkUnit

namespace Labour

def start : Labour := ⟨0, none, [], []⟩

/-- A component is called for a unit. -/
def call (labour : Labour) (unit : WorkUnit) (fails delivers : Bool) : Labour where
  records := if delivers then labour.records + 1 else labour.records
  failing := if fails then some unit else none
  unsettled := if fails then unit :: labour.unsettled else labour.unsettled.filter (· ≠ unit)
  retried := if unit ∈ labour.unsettled then unit :: labour.retried else labour.retried

/-- The unit that just failed is skipped: its key is resolved before anything else is called. -/
def skip (labour : Labour) : Labour :=
  match labour.failing with
  | none => labour
  | some unit =>
    { labour with
      records := labour.records + unit.taken
      failing := none
      unsettled := labour.unsettled.filter (· ≠ unit) }

/-- What failed is left to be done again. -/
def leave (labour : Labour) : Labour := { labour with failing := none }

/-- The grants a unit is due: one for each time it was called again, and one while it is
unsettled. -/
def due (labour : Labour) (unit : WorkUnit) : Nat :=
  labour.retried.count unit + if unit ∈ labour.unsettled then 1 else 0

variable {labour : Labour} {unit other : WorkUnit} {fails delivers : Bool}

private theorem due_call :
    (labour.call unit fails delivers).due unit = labour.due unit + fails.toNat := by
  have called : (labour.call unit fails delivers).retried.count unit =
      labour.retried.count unit + if unit ∈ labour.unsettled then 1 else 0 := by
    unfold call
    dsimp only
    split
    · exact List.count_cons_self
    · rfl
  have left : (if unit ∈ (labour.call unit fails delivers).unsettled then 1 else 0) =
      fails.toNat := by
    cases fails with
    | false => simp [call]
    | true => simp [call]
  unfold due
  rw [called, left]

private theorem due_call_ne (different : unit ≠ other) :
    (labour.call unit fails delivers).due other = labour.due other := by
  have called : (labour.call unit fails delivers).retried.count other =
      labour.retried.count other := by
    unfold call
    dsimp only
    split
    · exact List.count_cons_of_ne different
    · rfl
  have left : other ∈ (labour.call unit fails delivers).unsettled ↔ other ∈ labour.unsettled := by
    cases fails with
    | false => simp [call, Ne.symm different]
    | true => simp [call, Ne.symm different]
  unfold due
  rw [called]
  simp only [left]

/-- What a call leaves behind was there before, but for its own unit. -/
private theorem mem_call (here : other ∈ (labour.call unit fails delivers).unsettled ∨
    other ∈ (labour.call unit fails delivers).retried) :
    other = unit ∨ other ∈ labour.unsettled ∨ other ∈ labour.retried := by
  rcases here with unsettled | retried
  · unfold call at unsettled
    dsimp only at unsettled
    split at unsettled
    · exact (List.mem_cons.mp unsettled).imp_right .inl
    · exact .inr (.inl (List.mem_filter.mp unsettled).1)
  · unfold call at retried
    dsimp only at retried
    split at retried
    · exact (List.mem_cons.mp retried).imp_right .inr
    · exact .inr (.inr retried)

end Labour

def labourStep (labour : Labour) (event : Event I O) : Labour :=
  match event.unit labour.records with
  | some unit => labour.call unit event.fails event.delivers
  | none =>
    match event.query with
    | .resolve _ => labour.skip
    | .begin | .rollback | .reserve _ => labour.leave
    | _ => labour

def labourOf (generation : Trace I O) : Labour := generation.foldl labourStep .start

/-- How often a component was called again for a unit behind a failure of it, in the
generation at hand. -/
def retries (unit : WorkUnit) (trace : Trace I O) : Nat :=
  (labourOf (generationOf trace)).retried.count unit

/-- The ordinal of a record, from the first one of its generation on. -/
def ordinalAt (base record : Nat) : Nat := (saturatingAdd · 1)^[record] base

private theorem ordinalAt_add (base record more : Nat) :
    ordinalAt base (record + more) = ordinalAt (ordinalAt base record) more := by
  rw [ordinalAt, Nat.add_comm, Function.iterate_add_apply]
  rfl

/-- The key a unit of a generation is retried under; `ordinalOf` are the ordinals of the
processed records by their reader calls. -/
def Components.unitKey (components : Components) (checkpointDigest : Digest) (baseOrdinal : Nat)
    (ordinalOf : Nat → Nat) : WorkUnit → Digest
  | .read record => components.retryKey .read checkpointDigest (ordinalAt baseOrdinal record)
  | .process call => components.retryKey .process checkpointDigest (ordinalOf call)
  | .write => components.retryKey .write checkpointDigest baseOrdinal

/-- No component was called again for a unit more often than the store granted a retry for
the key of the unit. -/
def Repaid (components : Components) (trace : Trace I O) : Prop :=
  ∃ checkpointDigest baseOrdinal ordinalOf, ∀ unit, retries unit trace ≤
    grants (components.unitKey checkpointDigest baseOrdinal ordinalOf unit) trace

end Units

section Events

private theorem generationOf_snoc (trace : Trace I O) (event : Event I O) :
    generationOf (trace ++ [event]) = generationStep (generationOf trace) event := by
  simp [generationOf]

/-- Inside a generation an event comes behind the others. -/
private theorem generationOf_inside {event : Event I O} (inside : event.endsGeneration = false)
    (trace : Trace I O) : generationOf (trace ++ [event]) = generationOf trace ++ [event] := by
  rw [generationOf_snoc, generationStep, inside]
  rfl

/-- The generation at hand is the end of the trace, and no event of it ends one. -/
theorem generationOf_inner (trace : Trace I O) :
    (∃ before, trace = before ++ generationOf trace) ∧
      ∀ event ∈ generationOf trace, event.endsGeneration = false := by
  induction trace using List.reverseRecOn with
  | nil => exact ⟨⟨[], rfl⟩, fun _ member => by cases member⟩
  | append_singleton trace event ih =>
    obtain ⟨⟨before, split⟩, inner⟩ := ih
    rw [generationOf_snoc, generationStep]
    split_ifs with ends
    · exact ⟨⟨_, (List.append_nil _).symm⟩, fun _ member => by cases member⟩
    · refine ⟨⟨before, ?_⟩, fun other member => ?_⟩
      · rw [← List.append_assoc, ← split]
      · rcases List.mem_append.mp member with old | last
        · exact inner other old
        · rw [List.mem_singleton.mp last]
          exact Bool.eq_false_iff.mpr ends

/-- What has been done in the generation at hand. -/
def labour (trace : Trace I O) : Labour := labourOf (generationOf trace)

theorem labour_inside {event : Event I O} (inside : event.endsGeneration = false)
    (trace : Trace I O) : labour (trace ++ [event]) = labourStep (labour trace) event := by
  rw [labour, generationOf_inside inside, labourOf, List.foldl_append]
  rfl

private theorem grants_inside {event : Event I O} (inside : event.endsGeneration = false)
    (trace : Trace I O) (key : Digest) :
    grants key (trace ++ [event]) = grants key trace +
      (event.storeCall.bind (·.grantOf key)).toList.length := by
  rw [grants, generationOf_inside inside, storeCalls_append, granted, List.filterMap_append,
    List.length_append]
  congr 1
  unfold storeCalls
  cases call : event.storeCall with
  | none => simp [call]
  | some call' => cases grant : call'.grantOf key <;> simp [call, grant]

end Events

section Balance

variable {components : Components} {lag : Nat} {failing owing : Option WorkUnit}
  {exec : Exec I O} {event : Event I O}

/-- The ordinal of a buffered record by its reader call. -/
def ChunkBuffer.ordinalOf (buffer : ChunkBuffer I O) (call : Nat) : Nat :=
  ((buffer.slots.find? (·.call = call)).map (·.ordinal)).getD 0

def ChunkBuffer.unitKey (components : Components) (buffer : ChunkBuffer I O) (unit : WorkUnit) :
    Digest :=
  components.unitKey buffer.checkpointDigest buffer.baseOrdinal buffer.ordinalOf unit

/-- The account of a generation: the read ordinal lags behind the records taken by `lag`, and
every unsettled unit has a grant of its own, but for one that is `owing` its grant. -/
structure Balance (components : Components) (lag : Nat) (failing owing : Option WorkUnit)
    (exec : Exec I O) : Prop where
  failing : (labour exec.trace).failing = failing
  records : ordinalAt exec.buffer.baseOrdinal (labour exec.trace).records =
    ordinalAt exec.buffer.readOrdinal lag
  within : ∀ unit, (labour exec.trace).due unit ≤
    grants (exec.buffer.unitKey components unit) exec.trace + (if owing = some unit then 1 else 0)
  owed : ∀ unit, owing = some unit → unit ∈ (labour exec.trace).unsettled
  placed : ∀ call, .process call ∈ (labour exec.trace).unsettled ∨
    .process call ∈ (labour exec.trace).retried → call ∈ exec.buffer.slots.map (·.call)
  distinct : (exec.buffer.slots.map (·.call)).Nodup
  fresh : ∀ slot ∈ exec.buffer.slots, slot.call < readCount exec.trace

/-- What was called again is paid for, also where the last failure is not paid for yet. -/
theorem Balance.paid (balance : Balance components lag failing owing exec) (unit : WorkUnit) :
    (labour exec.trace).retried.count unit ≤
      grants (exec.buffer.unitKey components unit) exec.trace := by
  have within := balance.within unit
  unfold Labour.due at within
  by_cases owes : owing = some unit
  · rw [if_pos owes, if_pos (balance.owed unit owes)] at within
    omega
  · rw [if_neg owes] at within
    omega

theorem Balance.repaid (balance : Balance components lag failing owing exec) :
    Repaid components exec.trace :=
  ⟨_, _, _, balance.paid⟩

private theorem readCount_le (trace : Trace I O) (event : Event I O) :
    readCount trace ≤ readCount (trace ++ [event]) := by
  unfold readCount
  rw [List.countP_append]
  exact Nat.le_add_right _ _

private theorem grants_le (inside : event.endsGeneration = false) (trace : Trace I O)
    (key : Digest) :
    grants key trace ≤ grants key (trace ++ [event]) := by
  rw [grants_inside inside]
  exact Nat.le_add_right _ _

/-- The account behind an event, from what the event does to the units. -/
theorem Balance.advance {lag' : Nat} {failing' owing' : Option WorkUnit} {next : Labour}
    (balance : Balance components lag failing owing exec)
    (inside : event.endsGeneration = false)
    (stepped : labourStep (labour exec.trace) event = next) (failed : next.failing = failing')
    (records : ordinalAt exec.buffer.baseOrdinal next.records =
      ordinalAt exec.buffer.readOrdinal lag')
    (within : ∀ unit, next.due unit ≤
      grants (exec.buffer.unitKey components unit) (exec.trace ++ [event]) +
        (if owing' = some unit then 1 else 0))
    (owed : ∀ unit, owing' = some unit → unit ∈ next.unsettled)
    (placed : ∀ call, .process call ∈ next.unsettled ∨ .process call ∈ next.retried →
      call ∈ exec.buffer.slots.map (·.call)) :
    Balance components lag' failing' owing' { exec with trace := exec.trace ++ [event] } := by
  have done : labour (exec.trace ++ [event]) = next :=
    (labour_inside inside exec.trace).trans stepped
  subst done
  refine ⟨failed, records, within, owed, placed, balance.distinct, fun slot member => ?_⟩
  exact (balance.fresh slot member).trans_le (readCount_le _ _)

/-- An event that changes no units keeps the account. -/
theorem Balance.idle (balance : Balance components lag failing owing exec)
    (inside : event.endsGeneration = false)
    (same : labourStep (labour exec.trace) event = labour exec.trace) :
    Balance components lag failing owing { exec with trace := exec.trace ++ [event] } :=
  balance.advance inside same balance.failing balance.records
    (fun unit => (balance.within unit).trans (Nat.add_le_add_right (grants_le inside _ _) _))
    balance.owed balance.placed

/-- What failed is left unsettled. -/
theorem Balance.leave (balance : Balance components lag failing owing exec)
    (inside : event.endsGeneration = false)
    (left : labourStep (labour exec.trace) event = (labour exec.trace).leave) :
    Balance components lag none owing { exec with trace := exec.trace ++ [event] } :=
  balance.advance inside left rfl balance.records
    (fun unit => (balance.within unit).trans (Nat.add_le_add_right (grants_le inside _ _) _))
    balance.owed balance.placed

/-- A failed unit is skipped; the read ordinal lags behind when it was a read. -/
theorem Balance.skip {unit : WorkUnit} {key : Digest}
    (balance : Balance components 0 (some unit) (some unit) exec) :
    Balance components unit.taken none none
      { exec with trace := exec.trace ++ [⟨.resolve key, ()⟩] } := by
  have skipped : labourStep (labour exec.trace) (⟨.resolve key, ()⟩ : Event I O) =
      { labour exec.trace with
        records := (labour exec.trace).records + unit.taken
        failing := none
        unsettled := (labour exec.trace).unsettled.filter (· ≠ unit) } := by
    change (labour exec.trace).skip = _
    unfold Labour.skip
    rw [balance.failing]
  refine balance.advance rfl skipped rfl ?_ ?_ (fun _ owes => by cases owes) ?_
  · rw [ordinalAt_add, balance.records]
    rfl
  · intro other
    have more := @grants_le I O ⟨.resolve key, ()⟩ rfl exec.trace
      (exec.buffer.unitKey components other)
    have paid := balance.paid other
    have within := balance.within other
    unfold Labour.due at within ⊢
    dsimp only
    by_cases same : other = unit
    · rw [if_neg (by simp [same])]
      omega
    · rw [if_neg (fun owes => same (Option.some.inj owes).symm)] at within
      have kept : other ∈ (labour exec.trace).unsettled.filter (· ≠ unit) ↔
          other ∈ (labour exec.trace).unsettled := by simp [same]
      simp only [kept]
      omega
  · intro call here
    refine balance.placed call (here.imp_left fun member => ?_)
    exact (List.mem_filter.mp member).1

/-- A component is called for a unit; a failure owes a grant. -/
theorem Balance.call {unit : WorkUnit} (balance : Balance components 0 none none exec)
    (called : event.unit (labour exec.trace).records = some unit)
    (buffered : ∀ call, unit = .process call → call ∈ exec.buffer.slots.map (·.call)) :
    Balance components (if event.delivers then 1 else 0) (if event.fails then some unit else none)
      (if event.fails then some unit else none)
      { exec with trace := exec.trace ++ [event] } := by
  have inside : event.endsGeneration = false := by
    obtain ⟨query, answer⟩ := event
    cases query <;> first | rfl | cases called
  have stepped : labourStep (labour exec.trace) event =
      (labour exec.trace).call unit event.fails event.delivers := by
    unfold labourStep
    rw [called]
  refine balance.advance inside stepped rfl ?_ ?_ ?_ ?_
  · unfold Labour.call
    split
    · rw [ordinalAt_add, balance.records]
      rfl
    · exact balance.records
  · intro other
    have more := grants_le inside exec.trace (exec.buffer.unitKey components other)
    have within := balance.within other
    by_cases same : unit = other
    · subst same
      rw [Labour.due_call]
      cases event.fails with
      | false => exact within.trans (Nat.add_le_add_right more _)
      | true => simpa using within.trans more
    · rw [Labour.due_call_ne same]
      exact (within.trans more).trans (Nat.le_add_right _ _)
  · intro other owes
    unfold Labour.call
    split at owes
    · rename_i failed
      obtain rfl := Option.some.inj owes
      simp [failed]
    · cases owes
  · intro call here
    rcases Labour.mem_call here with same | old
    · exact buffered call same.symm
    · exact balance.placed call old

/-- The grant of a unit settles what it owes. -/
theorem Balance.grant {unit : WorkUnit} {reservation : RetryReservation}
    (balance : Balance components lag failing (some unit) exec)
    (keyed : reservation.key = exec.buffer.unitKey components unit) :
    Balance components lag none none
      { exec with trace := exec.trace ++ [⟨.reserve reservation, .ok ()⟩] } := by
  have left : labourStep (labour exec.trace) (⟨.reserve reservation, .ok ()⟩ : Event I O) =
      (labour exec.trace).leave := rfl
  refine balance.advance rfl left rfl balance.records ?_ (fun _ owes => by cases owes)
    balance.placed
  intro other
  have more := @grants_inside I O ⟨.reserve reservation, .ok ()⟩ rfl exec.trace
    (exec.buffer.unitKey components other)
  have within : (labour exec.trace).leave.due other ≤ _ := balance.within other
  by_cases same : unit = other
  · subst same
    have made : ((Event.storeCall (⟨.reserve reservation, .ok ()⟩ : Event I O)).bind
        (·.grantOf (exec.buffer.unitKey components unit))).toList.length = 1 := by
      simp [Event.storeCall, StoreCall.grantOf, keyed]
    rw [made] at more
    simp at within ⊢
    omega
  · rw [if_neg (fun owes => same (Option.some.inj owes))] at within
    simp
    omega

/-- Behind a commit nothing has been done. -/
theorem labour_commit {counts : ChunkCounts} {progress : ChunkFaultProgress}
    {componentState : List ComponentStateEnvelope} {slots : List (ItemSlot I)}
    {receipt : CommitReceipt} (trace : Trace I O) :
    labour (trace ++ [⟨.commit counts progress componentState slots, .ok receipt⟩]) = .start := by
  rw [labour, generationOf_snoc]
  rfl

end Balance

section Account

variable {components : Components} {lag : Nat} {failing owing : Option WorkUnit}

def RepaidAt (components : Components) (trace : Trace I O) (event : Event I O) : Prop :=
  Repaid components (trace ++ [event])

/-- However far the trace got, its component calls were paid for. -/
def AllRepaid (components : Components) (trace : Trace I O) : Prop :=
  Throughout (RepaidAt components) trace

/-- Calls that leave the units of work alone. -/
def Query.isLull : Query I O → Bool
  | .resolve _ | .rollback => false
  | query => query.isCalm

theorem Query.isSide_of_isLull {query : Query I O} (lull : query.isLull = true) :
    query.isSide = true := by
  cases query <;> first | rfl | cases lull

private theorem labourStep_lull {event : Event I O} (lull : event.query.isLull = true)
    (before : Labour) :
    labourStep before event = before := by
  obtain ⟨query, answer⟩ := event
  cases query <;> first | rfl | cases lull

private theorem endsGeneration_side {event : Event I O} (side : event.query.isSide = true) :
    event.endsGeneration = false := by
  obtain ⟨query, answer⟩ := event
  cases query <;> first | rfl | cases side

private theorem labourStep_calm {event : Event I O} (calm : event.query.isCalm = true)
    {before : Labour}
    (settled : before.failing = none) : labourStep before event = before := by
  have left : before.leave = before := by
    cases before
    cases settled
    rfl
  have skipped : before.skip = before := by
    unfold Labour.skip
    rw [settled]
  obtain ⟨query, answer⟩ := event
  cases query with
  | resolve key => exact skipped
  | rollback => exact left
  | _ => first | rfl | cases calm

/-- Calm events do nothing more to what has been done. -/
theorem labour_calm {trace : Trace I O} {events : List (Event I O)}
    (calm : ∀ event ∈ events, event.query.isCalm = true)
    (settled : (labour trace).failing = none) : labour (trace ++ events) = labour trace := by
  induction events generalizing trace with
  | nil => rw [List.append_nil]
  | cons event events ih =>
    have first := calm event List.mem_cons_self
    have same : labour (trace ++ [event]) = labour trace :=
      (labour_inside (endsGeneration_side (Query.isSide_of_isCalm first)) trace).trans
        (labourStep_calm first settled)
    have rest := @ih (trace ++ [event])
      (fun later member => calm later (List.mem_cons_of_mem _ member)) (same.symm ▸ settled)
    rw [List.append_assoc] at rest
    exact rest.trans same

private theorem retried_calm {event : Event I O} (calm : event.query.isCalm = true)
    (before : Labour) :
    (labourStep before event).retried = before.retried := by
  obtain ⟨query, answer⟩ := event
  cases query with
  | resolve key =>
    change before.skip.retried = _
    unfold Labour.skip
    split <;> rfl
  | _ => first | rfl | cases calm

private theorem repaid_nil : Repaid components ([] : Trace I O) :=
  ⟨[], 0, fun _ => 0, fun _ => Nat.zero_le _⟩

/-- An event behind which nothing has been called again keeps the trace repaid. -/
theorem Repaid.snoc {trace : Trace I O} {event : Event I O} (repaid : Repaid components trace)
    (inside : event.endsGeneration = false)
    (same : (labourStep (labour trace) event).retried = (labour trace).retried) :
    Repaid components (trace ++ [event]) := by
  obtain ⟨checkpointDigest, baseOrdinal, ordinalOf, paid⟩ := repaid
  refine ⟨checkpointDigest, baseOrdinal, ordinalOf, fun unit => ?_⟩
  have kept : retries unit (trace ++ [event]) = retries unit trace := by
    change (labour (trace ++ [event])).retried.count unit = (labour trace).retried.count unit
    rw [labour_inside inside, same]
  rw [kept]
  exact (paid unit).trans (grants_le inside _ _)

theorem AllRepaid.here {trace : Trace I O} (all : AllRepaid components trace) :
    Repaid components trace := by
  rcases List.eq_nil_or_concat trace with empty | ⟨front, last, same⟩
  · rw [empty]
    exact repaid_nil
  · rw [same, List.concat_eq_append]
    exact all front last [] (by rw [same, List.concat_eq_append])

theorem AllRepaid.before {trace reached : Trace I O} (all : AllRepaid components trace)
    (part : reached <+: trace) : Repaid components reached := by
  obtain ⟨rest, rfl⟩ := part
  exact AllRepaid.here (Throughout.of_append all)

theorem AllRepaid.calm {trace : Trace I O} {events : List (Event I O)}
    (all : AllRepaid components trace) (calm : ∀ event ∈ events, event.query.isCalm = true) :
    AllRepaid components (trace ++ events) :=
  Throughout.extend all all.here fun before event member repaid =>
    have kept := repaid.snoc (endsGeneration_side (Query.isSide_of_isCalm (calm event member)))
      (retried_calm (calm event member) (labour before))
    ⟨kept, kept⟩

/-- The account of a generation in a run that was repaid at every moment. -/
structure Working (components : Components) (lag : Nat) (failing owing : Option WorkUnit)
    (exec : Exec I O) : Prop extends Balance components lag failing owing exec where
  history : AllRepaid components exec.trace

variable {exec : Exec I O} {event : Event I O}

/-- An account that goes on behind an event. -/
theorem Working.snoc {lag' : Nat} {failing' owing' : Option WorkUnit}
    (working : Working components lag failing owing exec)
    (balance : Balance components lag' failing' owing'
      { exec with trace := exec.trace ++ [event] }) :
    Working components lag' failing' owing' { exec with trace := exec.trace ++ [event] } :=
  ⟨balance, Throughout.snoc working.history balance.repaid⟩

/-- The account in front of another buffer. -/
theorem Balance.rebuffer {after : Exec I O} {lag' : Nat}
    (balance : Balance components lag failing owing exec) (trace : after.trace = exec.trace)
    (records : ordinalAt after.buffer.baseOrdinal (labour exec.trace).records =
      ordinalAt after.buffer.readOrdinal lag')
    (keys : ∀ unit, (labour exec.trace).due unit ≠ 0 →
      after.buffer.unitKey components unit = exec.buffer.unitKey components unit)
    (placed : ∀ call ∈ exec.buffer.slots.map (·.call), call ∈ after.buffer.slots.map (·.call))
    (distinct : (after.buffer.slots.map (·.call)).Nodup)
    (fresh : ∀ slot ∈ after.buffer.slots, slot.call < readCount exec.trace) :
    Balance components lag' failing owing after := by
  constructor
  · rw [trace]
    exact balance.failing
  · rw [trace]
    exact records
  · intro unit
    rw [trace]
    by_cases nothing : (labour exec.trace).due unit = 0
    · rw [nothing]
      exact Nat.zero_le _
    · rw [keys unit nothing]
      exact balance.within unit
  · rw [trace]
    exact balance.owed
  · intro call here
    rw [trace] at here
    exact placed call (balance.placed call here)
  · exact distinct
  · rw [trace]
    exact fresh

theorem unitKey_eq {buffer buffer' : ChunkBuffer I O} (place : buffer'.place = buffer.place)
    (slots : buffer'.slots = buffer.slots) :
    buffer'.unitKey components = buffer.unitKey components := by
  obtain ⟨digest, base, read⟩ := ChunkPlace.mk.inj place
  funext unit
  unfold ChunkBuffer.unitKey ChunkBuffer.ordinalOf
  rw [digest, base, slots]

theorem Balance.recast {after : Exec I O} (balance : Balance components lag failing owing exec)
    (trace : after.trace = exec.trace) (slots : after.buffer.slots = exec.buffer.slots)
    (place : after.buffer.place = exec.buffer.place) :
    Balance components lag failing owing after := by
  obtain ⟨_, base, read⟩ := ChunkPlace.mk.inj place
  refine balance.rebuffer trace ?_ (fun unit _ => by rw [unitKey_eq place slots]) ?_ ?_ ?_
  · rw [base, read]
    exact balance.records
  · rw [slots]
    exact fun _ member => member
  · rw [slots]
    exact balance.distinct
  · rw [slots]
    exact balance.fresh

/-- The step made calls that leave the units alone, and left the chunk where it was. -/
structure Lull (before after : Exec I O) : Prop where
  events : ∃ events, after.trace = before.trace ++ events ∧
    ∀ event ∈ events, event.query.isLull = true
  slots : after.buffer.slots = before.buffer.slots
  place : after.buffer.place = before.buffer.place

/-- What holds of the account behind each event holds of it behind all. -/
theorem Working.append {events : List (Event I O)}
    (working : Working components lag failing owing exec)
    (each : ∀ exec' : Exec I O, Balance components lag failing owing exec' → ∀ event ∈ events,
      Balance components lag failing owing { exec' with trace := exec'.trace ++ [event] }) :
    Working components lag failing owing { exec with trace := exec.trace ++ events } := by
  induction events generalizing exec with
  | nil =>
    rw [List.append_nil]
    exact working
  | cons event events ih =>
    have first := working.snoc (each exec working.toBalance event List.mem_cons_self)
    have rest := ih first fun exec' balance other member =>
      each exec' balance other (List.mem_cons_of_mem _ member)
    rw [List.append_assoc] at rest
    exact rest

theorem Working.lull {after : Exec I O} (working : Working components lag failing owing exec)
    (lull : Lull exec after) : Working components lag failing owing after := by
  obtain ⟨events, trace, quiet⟩ := lull.events
  have appended := working.append fun exec' balance event member =>
    balance.idle (endsGeneration_side (Query.isSide_of_isLull (quiet event member)))
      (labourStep_lull (quiet event member) _)
  refine ⟨appended.toBalance.recast trace lull.slots lull.place, ?_⟩
  rw [trace]
  exact appended.history

theorem Working.still {after : Exec I O} (working : Working components lag none owing exec)
    (still : Still exec after) : Working components lag none owing after := by
  obtain ⟨events, trace, calm⟩ := still.events
  have appended := working.append fun exec' balance event member =>
    balance.idle (endsGeneration_side (Query.isSide_of_isCalm (calm event member)))
      (labourStep_calm (calm event member) balance.failing)
  refine ⟨appended.toBalance.recast trace still.slots still.place, ?_⟩
  rw [trace]
  exact appended.history

end Account

section Buffers

variable {components : Components} {owing : Option WorkUnit} {exec : Exec I O}

theorem ordinalOf_mem {buffer : ChunkBuffer I O} {slot : ItemSlot I}
    (distinct : (buffer.slots.map (·.call)).Nodup) (member : slot ∈ buffer.slots) :
    buffer.ordinalOf slot.call = slot.ordinal := by
  unfold ChunkBuffer.ordinalOf
  cases found : buffer.slots.find? (·.call = slot.call) with
  | none =>
    have absent := List.find?_eq_none.mp found slot member
    simp at absent
  | some other =>
    have same : other.call = slot.call := by simpa using List.find?_some found
    have equal := List.inj_on_of_nodup_map distinct (List.mem_of_find?_eq_some found) member same
    rw [equal]
    rfl

/-- The record that was read joins the buffer. -/
theorem Working.delivered {item : I} {ordinal call : Nat}
    (working : Working components 1 none none exec)
    (later : ∀ slot ∈ exec.buffer.slots, slot.call < call) (made : call < readCount exec.trace) :
    Working components 0 none none
      { exec with buffer := { exec.buffer with
          slots := exec.buffer.slots ++ [⟨item, ordinal, false, call⟩],
          readOrdinal := saturatingAdd exec.buffer.readOrdinal 1 } } := by
  have calls : (exec.buffer.slots ++
      [(⟨item, ordinal, false, call⟩ : ItemSlot I)]).map (·.call) =
      exec.buffer.slots.map (·.call) ++ [call] := by simp
  refine ⟨working.toBalance.rebuffer rfl working.records ?_ ?_ ?_ ?_, working.history⟩
  · intro unit dues
    cases unit with
    | read record => rfl
    | write => rfl
    | process other =>
      have known : other ∈ exec.buffer.slots.map (·.call) := by
        apply working.placed other
        by_contra nowhere
        obtain ⟨settled, fresh⟩ := not_or.mp nowhere
        apply dues
        unfold Labour.due
        rw [if_neg settled, List.count_eq_zero_of_not_mem fresh]
      obtain ⟨slot, member, rfl⟩ := List.mem_map.mp known
      have found : (exec.buffer.slots.find? (·.call = slot.call)).isSome = true :=
        List.find?_isSome.mpr ⟨slot, member, by simp⟩
      unfold ChunkBuffer.unitKey Components.unitKey ChunkBuffer.ordinalOf
      dsimp only
      rw [List.find?_append, Option.or_of_isSome found]
  · intro other member
    rw [calls]
    exact List.mem_append_left _ member
  · rw [calls]
    refine List.nodup_append.mpr ⟨working.distinct, List.nodup_singleton _, ?_⟩
    intro other member last same
    obtain ⟨slot, present, rfl⟩ := List.mem_map.mp member
    rw [List.mem_singleton.mp same]
    exact (later slot present).ne
  · intro slot member
    rcases List.mem_append.mp member with old | new
    · exact working.fresh slot old
    · rw [List.mem_singleton.mp new]
      exact made

/-- The read ordinal catches up with a read that was skipped. -/
theorem Working.passed {skips : List (PendingSkip O)}
    (working : Working components 1 none none exec) :
    Working components 0 none none
      { exec with buffer := { exec.buffer with
          readOrdinal := saturatingAdd exec.buffer.readOrdinal 1, skips := skips } } :=
  ⟨working.toBalance.rebuffer rfl working.records (fun _ _ => rfl) (fun _ member => member)
    working.distinct working.fresh, working.history⟩

/-- The reader calls and ordinals of the buffered records. -/
def ChunkBuffer.records (buffer : ChunkBuffer I O) : List (Nat × Nat) :=
  buffer.slots.map fun slot => (slot.call, slot.ordinal)

private theorem calls_eq (buffer : ChunkBuffer I O) :
    buffer.slots.map (·.call) = buffer.records.map Prod.fst := by
  simp [ChunkBuffer.records]

private theorem ordinalOf_eq (buffer : ChunkBuffer I O) (call : Nat) :
    buffer.ordinalOf call = ((buffer.records.find? (·.1 = call)).map Prod.snd).getD 0 := by
  unfold ChunkBuffer.ordinalOf ChunkBuffer.records
  rw [List.find?_map, Option.map_map]
  rfl

theorem records_markSkipped (buffer : ChunkBuffer I O) (index : Nat) :
    (buffer.markSkipped index).records = buffer.records := by
  apply List.ext_getElem?
  intro place
  unfold ChunkBuffer.records ChunkBuffer.markSkipped
  simp only [List.getElem?_map, List.getElem?_modify]
  cases buffer.slots[place]? with
  | none => rfl
  | some slot =>
    by_cases here : index = place
    · simp [here]
    · simp [here]

/-- A record that is skipped stays where it was. -/
theorem Working.marked {buffer : ChunkBuffer I O} (working : Working components 0 none none exec)
    (same : buffer.records = exec.buffer.records) (place : buffer.place = exec.buffer.place) :
    Working components 0 none none { exec with buffer := buffer } := by
  obtain ⟨digest, base, read⟩ := ChunkPlace.mk.inj place
  have calls : buffer.slots.map (·.call) = exec.buffer.slots.map (·.call) := by
    rw [calls_eq, same, ← calls_eq]
  refine ⟨working.toBalance.rebuffer rfl ?_ (fun unit _ => ?_) (fun _ member => ?_) ?_ ?_,
    working.history⟩
  · rw [base, read]
    exact working.records
  · have ordinals : buffer.ordinalOf = exec.buffer.ordinalOf := by
      funext call
      rw [ordinalOf_eq, same, ← ordinalOf_eq]
    unfold ChunkBuffer.unitKey
    dsimp only
    rw [digest, base, ordinals]
  · exact calls.symm ▸ member
  · exact calls.symm ▸ working.distinct
  · intro slot member
    have known : slot.call ∈ exec.buffer.slots.map (·.call) :=
      calls ▸ List.mem_map_of_mem member
    obtain ⟨old, present, equal⟩ := List.mem_map.mp known
    exact equal ▸ working.fresh old present

end Buffers

end OxideBatch.Chunk
