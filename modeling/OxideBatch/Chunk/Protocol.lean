import OxideBatch.Chunk.FaultLedger
import OxideBatch.Core.Sums

/-! The protocol of an attempt: how its transaction is resolved, which end of the completion
policy it owes, and what its receipts add up to. -/

namespace OxideBatch.Chunk

open OxideBatch.Core OxideBatch.Lib Program

variable {I O : Type}

section Trace

/-- How a transaction ended: a rollback that failed leaves it lost. -/
inductive Fate where
  | committed
  | rolledBack
  | unknown
  | lost
  deriving DecidableEq

/-- Where the transaction of the last attempt stands. -/
inductive Standing where
  | idle
  | opened
  | closed (fate : Fate)
  deriving DecidableEq

def standingStep (standing : Standing) (event : Event I O) : Standing :=
  match event with
  | ⟨.begin, .ok ()⟩ => .opened
  | ⟨.begin, .error _⟩ => .idle
  | ⟨.commit _ _ _ _, .ok _⟩ => .closed .committed
  | ⟨.commit _ _ _ _, .error .commitOutcomeUnknown⟩ => .closed .unknown
  | ⟨.rollback, true⟩ => .closed .rolledBack
  | ⟨.rollback, false⟩ => .closed .lost
  | _ => standing

def standingOf (trace : Trace I O) : Standing := trace.foldl standingStep .idle

def owesStep (owes : Bool) (event : Event I O) : Bool :=
  match event with
  | ⟨.policyBegin, some ()⟩ => true
  | ⟨.policyEnd _, _⟩ => false
  | _ => owes

/-- Whether the completion policy began and was not ended since. -/
def owesEnd (trace : Trace I O) : Bool := trace.foldl owesStep false

def unbegunStep (unbegun : Bool) (event : Event I O) : Bool :=
  match event with
  | ⟨.begin, .ok ()⟩ => true
  | ⟨.policyBegin, _⟩ => false
  | _ => unbegun

/-- Whether no policy was begun since the last transaction was. -/
def policyUnbegun (trace : Trace I O) : Bool := trace.foldl unbegunStep false

/-- The fault an error pass tells listeners of. -/
def ItemPass.fault? : ItemPass I O → Option FaultDescriptor
  | .readError fault | .processError _ fault | .writeError _ fault => some fault
  | _ => none

theorem ItemPass.isError_of_fault {pass : ItemPass I O} {fault : FaultDescriptor}
    (tells : pass.fault? = some fault) : pass.isError = true := by
  cases pass <;> first | rfl | cases tells

def unknownStep (held : Bool) (event : Event I O) : Bool :=
  match event with
  | ⟨.after pass _, []⟩ => pass.fault?.elim held fun fault => fault.category = .unknownCommit
  | ⟨.after _ _, _ :: _⟩ => false
  | _ => held

/-- Whether listeners let a fault of an unknown commit through to its classification, and no
listener failed since. -/
def unknownFault (trace : Trace I O) : Bool := trace.foldl unknownStep false

/-- What a commit with a receipt counted. -/
structure Receipt where
  counts : ChunkCounts
  skips : SkipCounts

def Event.receipt (event : Event I O) : Option Receipt :=
  match event with
  | ⟨.commit counts progress _ _, .ok _⟩ => some ⟨counts, progress.skips⟩
  | _ => none

def receipts (trace : Trace I O) : List Receipt := trace.filterMap Event.receipt

/-- A fault was classified as unknown: a policy is installed to do so. -/
def Doomed (components : Components) (trace : Trace I O) : Prop :=
  components.fault.isSome = true ∧ unknownFault trace = true

def Event.tellsFault (event : Event I O) : Bool :=
  match event.query with
  | .after pass _ => pass.isError
  | _ => false

/-- The passes made behind a fault that is classified as unknown: the end of the retry it
fails, directly behind its error pass, and the end of its retries. -/
def Heard (trace : Trace I O) : ItemPass I O → Prop
  | .afterRetry _ _ => ∃ event ∈ trace.getLast?, event.tellsFault = true
  | .retryExhausted fault => fault.category = .unknownCommit
  | _ => False

/-- What the runtime may ask after a trace. -/
def ProperAt (components : Components) (trace : Trace I O) (event : Event I O) : Prop :=
  match event.query with
  | .begin => standingOf trace ∈ [.idle, .closed .committed, .closed .rolledBack] ∧
      owesEnd trace = false ∧ ¬ Doomed components trace
  | .commit _ _ _ _ =>
    standingOf trace = .opened ∧ owesEnd trace = components.hasCompletionPolicy
  | .rollback => standingOf trace = .opened
  | .policyBegin => standingOf trace = .opened ∧ owesEnd trace = false ∧
      policyUnbegun trace = true ∧ components.hasCompletionPolicy = true
  | .policyEnd outcome => owesEnd trace = true ∧
      (outcome = .committed ↔ standingOf trace = .closed .committed)
  | .afterChunk _ _ outcome => outcome = .committed ↔ standingOf trace = .closed .committed
  | .emit (.rolledBack _) => standingOf trace ≠ .closed .committed
  | .after pass _ => Doomed components trace → Heard trace pass
  | _ => True

theorem standingOf_snoc (trace : Trace I O) (event : Event I O) :
    standingOf (trace ++ [event]) = standingStep (standingOf trace) event := by
  simp [standingOf]

theorem owesEnd_snoc (trace : Trace I O) (event : Event I O) :
    owesEnd (trace ++ [event]) = owesStep (owesEnd trace) event := by
  simp [owesEnd]

theorem policyUnbegun_snoc (trace : Trace I O) (event : Event I O) :
    policyUnbegun (trace ++ [event]) = unbegunStep (policyUnbegun trace) event := by
  simp [policyUnbegun]

theorem unknownFault_snoc (trace : Trace I O) (event : Event I O) :
    unknownFault (trace ++ [event]) = unknownStep (unknownFault trace) event := by
  simp [unknownFault]

theorem receipts_snoc (trace : Trace I O) (event : Event I O) :
    receipts (trace ++ [event]) = receipts trace ++ event.receipt.toList := by
  cases made : event.receipt with
  | none => simp [receipts, made]
  | some receipt => simp [receipts, made]

end Trace

section Aside

/-- Calls that leave an attempt where it stands. -/
def Query.isAside : Query I O → Bool
  | .read _ | .process _ _ | .write _ | .reserve _ | .resolve _ | .clearResolved
  | .emit (.committed _) => true
  | query => query.isMild

/-- The step moved no attempt, counted nothing and left the pending skips alone. -/
structure Aside (before after : Exec I O) : Prop where
  events : ∃ events, after.trace = before.trace ++ events ∧
    ∀ event ∈ events, event.query.isAside = true
  tally : after.state.tally = before.state.tally
  skips : after.buffer.skips = before.buffer.skips

theorem Aside.refl (exec : Exec I O) : Aside exec exec := ⟨⟨[], by simp, by simp⟩, rfl, rfl⟩

theorem Aside.trans {first second third : Exec I O} (left : Aside first second)
    (right : Aside second third) : Aside first third := by
  obtain ⟨front, leftTrace, leftAside⟩ := left.events
  obtain ⟨back, rightTrace, rightAside⟩ := right.events
  refine ⟨⟨front ++ back, ?_, ?_⟩, right.tally.trans left.tally, right.skips.trans left.skips⟩
  · rw [rightTrace, leftTrace, List.append_assoc]
  · intro event member
    rcases List.mem_append.mp member with inFront | inBack
    · exact leftAside event inFront
    · exact rightAside event inBack

theorem Query.isAside_of_isMild {query : Query I O} (quiet : query.isMild = true) :
    query.isAside = true := by
  cases query with
  | emit event => cases event <;> first | rfl | cases quiet
  | _ => first | rfl | exact quiet

theorem aside_ask (env : Environment I O) {query : Query I O} (aside : query.isAside = true) :
    Along Aside (ask env query) :=
  fun exec => ⟨⟨[⟨query, env exec.trace query⟩], rfl, by simp [aside]⟩, rfl, rfl⟩

theorem mild_aside : Settling (Aside : Exec I O → Exec I O → Prop) where
  refl := Aside.refl
  trans := Aside.trans
  ask exec query answer quiet :=
    ⟨⟨[⟨query, answer⟩], rfl, by simp [Query.isAside_of_isMild quiet]⟩, rfl, rfl⟩
  state exec state same := ⟨(Aside.refl exec).events, same, rfl⟩
  retry exec retry := ⟨(Aside.refl exec).events, rfl, rfl⟩
  resolve exec key := ⟨⟨[⟨.resolve key, ()⟩], rfl, by simp [Query.isAside]⟩, rfl, rfl⟩

variable {event : Event I O} (aside : event.query.isAside = true)

include aside

theorem standingStep_aside (standing : Standing) : standingStep standing event = standing := by
  obtain ⟨query, answer⟩ := event
  cases query <;> first | rfl | cases aside

theorem owesStep_aside (owes : Bool) : owesStep owes event = owes := by
  obtain ⟨query, answer⟩ := event
  cases query <;> first | rfl | cases aside

theorem unbegunStep_aside (unbegun : Bool) : unbegunStep unbegun event = unbegun := by
  obtain ⟨query, answer⟩ := event
  cases query <;> first | rfl | cases aside

theorem receipt_aside : event.receipt = none := by
  obtain ⟨query, answer⟩ := event
  cases query <;> first | rfl | cases aside

theorem properAt_aside {components : Components} {trace : Trace I O}
    (known : ¬ Doomed components trace) : ProperAt components trace event := by
  obtain ⟨query, answer⟩ := event
  cases query with
  | emit event => cases event <;> trivial
  | after pass entered => exact fun doomed => absurd doomed known
  | _ => trivial

/-- An aside call classifies no fault. -/
theorem unknownStep_aside : unknownStep false event = false := by
  obtain ⟨query, answer⟩ := event
  cases query with
  | after pass entered =>
    cases answer with
    | nil => cases pass <;> first | rfl | cases aside
    | cons first rest => rfl
  | _ => rfl

end Aside

end OxideBatch.Chunk
