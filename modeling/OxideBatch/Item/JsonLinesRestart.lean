import OxideBatch.Item.JsonLinesSpec

/-! Restart refinement of the JSON Lines reader: across chunkings, I/O failures
and restarts, the outcomes that are not transient are the specified ones. -/

namespace OxideBatch.Item.JsonLines

open OxideBatch.Core

example : specLines [97, 13, 10, 10, 98, 13] = [[97], [], [98, 13]] := by decide

/-- The byte offset at which record `index` starts. -/
def boundary (bytes : List UInt8) : Nat → Nat
  | 0 => 0
  | index + 1 =>
    boundary bytes index + (firstLine (bytes.drop (boundary bytes index))).2

theorem splitLines_boundary (bytes : List UInt8) (index : Nat) :
    splitLines [] (bytes.drop (boundary bytes index)) = (specLines bytes).drop index := by
  induction index with
  | zero => simp [boundary, specLines]
  | succ index ih =>
    by_cases exhausted : bytes.drop (boundary bytes index) = []
    · rw [exhausted] at ih
      have none : (specLines bytes).drop index = [] := by rw [← ih]; simp [splitLines]
      have stuck : bytes.drop (boundary bytes (index + 1)) = [] := by
        simp only [boundary, exhausted]
        simpa [firstLine] using exhausted
      rw [stuck, ← List.drop_drop, none]
      simp [splitLines]
    · rw [splitLines_first _ exhausted, List.drop_drop] at ih
      rw [← List.drop_drop, ← ih]
      simp [boundary]

/-- The specified outcome at `index` is the bounded first record found at its
boundary. -/
private theorem specOutcome_boundary (parse : List UInt8 → Option Item) (maxBytes : Nat)
    (bytes : List UInt8) (index : Nat) :
    specOutcome parse maxBytes bytes index =
      if bytes.drop (boundary bytes index) = [] then .ok .endOfInput
      else specRecord parse maxBytes (firstLine (bytes.drop (boundary bytes index))).1 := by
  have located := splitLines_boundary bytes index
  have indexed : (specLines bytes)[index]? = ((specLines bytes).drop index)[0]? := by simp
  by_cases exhausted : bytes.drop (boundary bytes index) = []
  · rw [exhausted] at located
    simp [specOutcome, indexed, ← located, exhausted, splitLines]
  · rw [splitLines_first _ exhausted] at located
    simp [specOutcome, indexed, ← located, exhausted]

/-- The failure class a driver retries without advancing. -/
def isTransient : Outcome Item → Bool
  | .error error => error.category == .transientInfrastructure
  | .ok _ => false

def durable (outcomes : List (Outcome Item)) : List (Outcome Item) :=
  outcomes.filter (fun outcome => !isTransient outcome)

theorem durable_append (first second : List (Outcome Item)) :
    durable (first ++ second) = durable first ++ durable second :=
  List.filter_append ..

theorem specRecord_not_transient (parse : List UInt8 → Option Item) (maxBytes : Nat)
    (payload : List UInt8) : isTransient (specRecord parse maxBytes payload) = false := by
  unfold specRecord
  split
  · rfl
  · split
    · rfl
    · rfl

/-- The reader answers a record that fits with its parse, or as malformed. -/
private theorem specRecord_fits {parse : List UInt8 → Option Item} {maxBytes : Nat}
    {payload : List UInt8} (fits : ¬ maxBytes < payload.length) :
    specRecord parse maxBytes payload = decodeLine parse payload := by
  unfold specRecord decodeLine
  rw [if_neg fits]
  cases parse payload with
  | some value => rfl
  | none => rfl

/-- The reader answers an oversized record as malformed. -/
private theorem specRecord_tooLong {parse : List UInt8 → Option Item} {maxBytes : Nat}
    {payload : List UInt8} (beyond : maxBytes < payload.length) :
    specRecord parse maxBytes payload = .error malformed :=
  if_pos beyond

private theorem specOutcome_not_transient (parse : List UInt8 → Option Item) (maxBytes : Nat)
    (bytes : List UInt8) (index : Nat) :
    isTransient (specOutcome parse maxBytes bytes index) = false := by
  rw [specOutcome_boundary]
  split
  · rfl
  · exact specRecord_not_transient parse maxBytes _

/-- The reader stands before record `index`: its position is that boundary, and
an unarmed reader's physical cursor is confirmed to be there. -/
structure Reader.At (reader : Reader) (bytes : List UInt8) (maxBytes index : Nat) : Prop where
  sameBytes : reader.source.bytes = bytes
  sameMax : reader.maxRecordBytes = maxBytes
  position : reader.position = boundary bytes index
  confirmed : reader.needsSeek = false → reader.source.cursor = reader.position

/-- Seeking fails with its I/O call and keeps the stored position, or confirms
the physical cursor. -/
theorem Reader.seekIfNeeded_cases {reader : Reader} (here : reader.At bytes maxBytes index) :
    (∃ after, reader.seekIfNeeded = (false, after) ∧ after.At bytes maxBytes index ∧
      reader.source.FailedBetween after.source) ∨
    (∃ after, reader.seekIfNeeded = (true, after) ∧ after.At bytes maxBytes index ∧
      after.source.cursor = boundary bytes index ∧
      reader.source.Follows after.source) := by
  by_cases armed : reader.needsSeek = true
  · rcases reader.source.seek_cases reader.position with
      ⟨source, call, follows, failed⟩ | ⟨source, call, follows, landed⟩
    · refine .inl ⟨{ reader with source }, by simp [seekIfNeeded, armed, call], ?_, failed⟩
      exact ⟨follows.bytes.trans here.sameBytes, here.sameMax, here.position, by simp [armed]⟩
    · refine .inr ⟨{ reader with source, needsSeek := false },
        by simp [seekIfNeeded, armed, call], ?_, landed.trans here.position, follows⟩
      exact ⟨follows.bytes.trans here.sameBytes, here.sameMax, here.position, fun _ => landed⟩
  · have settled : reader.needsSeek = false := by simpa using armed
    refine .inr ⟨reader, by simp [seekIfNeeded, armed], here, ?_, .refl _⟩
    rw [here.confirmed settled, here.position]

/-- One read: a transient failure that changes no position and comes with a
failed I/O call, or the specified outcome with the reader at the next record. -/
theorem Reader.read_cases (parse : List UInt8 → Option Item) {reader : Reader}
    (here : reader.At bytes maxBytes index) :
    ((reader.read parse).1 = .error transient ∧
      (reader.read parse).2.At bytes maxBytes index ∧
      reader.source.FailedBetween (reader.read parse).2.source) ∨
    ((reader.read parse).1 = specOutcome parse maxBytes bytes index ∧
      (reader.read parse).2.At bytes maxBytes (index + 1)) := by
  rcases Reader.seekIfNeeded_cases here with
    ⟨sought, call, still, failed⟩ | ⟨sought, call, still, landed, follows⟩
  · exact .inl ⟨by simp [read, call], by simpa [read, call] using still,
      by simpa [read, call] using failed⟩
  have remaining : sought.source.rest = bytes.drop (boundary bytes index) := by
    rw [Source.rest, still.sameBytes, landed]
  rcases readBoundedLine_cases sought.source sought.maxRecordBytes with
    ⟨source, line, onward, failed⟩ | ⟨source, line, onward, cursor⟩
  · refine .inl ⟨by simp [read, call, line], ?_, ?_⟩
    · simp only [read, call, line]
      exact ⟨onward.bytes.trans still.sameBytes, still.sameMax, still.position, by simp⟩
    · simpa [read, call, line] using failed.widen follows
  · right
    rw [remaining, still.sameMax] at line
    rw [remaining, landed] at cursor
    have settled : ∀ moved, moved = boundary bytes (index + 1) →
        ({ sought with source, position := moved } : Reader).At bytes maxBytes (index + 1) :=
      fun moved same =>
        ⟨onward.bytes.trans still.sameBytes, still.sameMax, same, fun _ => cursor.trans same.symm⟩
    rw [specOutcome_boundary]
    by_cases exhausted : bytes.drop (boundary bytes index) = []
    · have stays : sought.position = boundary bytes (index + 1) := by
        simp [still.position, boundary, exhausted, firstLine]
      simp only [expectedLine, exhausted, if_true] at line
      simpa [read, call, still.sameMax, line, exhausted] using settled sought.position stays
    · have moves : sought.position + (firstLine (bytes.drop (boundary bytes index))).2 =
          boundary bytes (index + 1) := by rw [still.position]; rfl
      simp only [expectedLine, exhausted, if_false, bounded] at line
      by_cases beyond : maxBytes < (firstLine (bytes.drop (boundary bytes index))).1.length
      · rw [if_pos beyond] at line
        simpa [read, call, still.sameMax, line, exhausted, specRecord_tooLong beyond]
          using settled _ moves
      · rw [if_neg beyond] at line
        simpa [read, call, still.sameMax, line, exhausted, specRecord_fits beyond]
          using settled _ moves

/-- A session is consistent with the specification: everything durable so far is
a prefix of it, and the stored position is the boundary its kept part reached. -/
structure Session.Refines (session : Session Item) (parse : List UInt8 → Option Item)
    (bytes : List UInt8) (maxBytes storedIndex index : Nat) : Prop where
  kept : durable session.kept = (List.range storedIndex).map (specOutcome parse maxBytes bytes)
  outcomes : durable session.outcomes = (List.range index).map (specOutcome parse maxBytes bytes)
  stored : session.stored.getD 0 = boundary bytes storedIndex
  reader : session.reader.At bytes maxBytes index

theorem Session.start_refines (parse : List UInt8 → Option Item) (source : Source)
    (maxBytes : Nat) :
    (Session.start Item source maxBytes).Refines parse source.bytes maxBytes 0 0 :=
  ⟨rfl, rfl, rfl, rfl, rfl, rfl, by simp [start, Reader.new, Reader.openStream]⟩

/-- Every driver action keeps the session consistent. -/
theorem Session.step_refines {session : Session Item}
    (inv : session.Refines parse bytes maxBytes storedIndex index) (action : Action) :
    ∃ storedIndex' index',
      (session.step parse action).Refines parse bytes maxBytes storedIndex' index' := by
  cases action with
  | read =>
    rcases Reader.read_cases parse inv.reader with ⟨outcome, still, _⟩ | ⟨outcome, next⟩
    · refine ⟨storedIndex, index, inv.kept, ?_, inv.stored, still⟩
      have dropped : durable [(session.reader.read parse).1] = [] := by
        simp [durable, outcome, isTransient, transient, ReaderError.withCategory]
      simpa [Session.outcomes, step, ← List.append_assoc, durable_append, dropped]
        using inv.outcomes
    · refine ⟨storedIndex, index + 1, inv.kept, ?_, inv.stored, next⟩
      have retained : durable [(session.reader.read parse).1] =
          [specOutcome parse maxBytes bytes index] := by
        simp [durable, outcome, specOutcome_not_transient]
      have before : durable session.kept ++ durable session.fresh = _ :=
        (durable_append _ _).symm.trans inv.outcomes
      simp [Session.outcomes, step, durable_append, retained, List.range_succ,
        ← List.append_assoc, before]
  | store =>
    refine ⟨index, index, inv.outcomes, ?_, inv.reader.position, inv.reader⟩
    simpa [Session.outcomes, step] using inv.outcomes
  | restart cursor =>
    refine ⟨storedIndex, storedIndex, inv.kept, ?_, inv.stored, ?_⟩
    · simpa [Session.outcomes, step] using inv.kept
    · exact ⟨inv.reader.sameBytes, inv.reader.sameMax, inv.stored,
        by simp [step, Reader.restart, Reader.new, Reader.openStream]⟩

theorem Session.run_refines {session : Session Item}
    (inv : session.Refines parse bytes maxBytes storedIndex index) (actions : List Action) :
    ∃ storedIndex' index',
      (session.run parse actions).Refines parse bytes maxBytes storedIndex' index' := by
  induction actions generalizing session storedIndex index with
  | nil => exact ⟨storedIndex, index, inv⟩
  | cons action actions ih =>
    obtain ⟨storedIndex', index', next⟩ := Session.step_refines inv action
    exact ih next

/-- However the source chunks its bytes, fails its calls, and is restarted, the
outcomes that are not transient are the specified ones in order. A transient
error leaves the stored position alone and is always caused by a failed call. -/
theorem session_outcomes_eq_spec (parse : List UInt8 → Option Item) (source : Source)
    (maxBytes : Nat) (actions : List Action) :
    let session := (Session.start Item source maxBytes).run parse actions
    let answer := session.reader.read parse
    durable session.outcomes =
        (List.range (durable session.outcomes).length).map
          (specOutcome parse maxBytes source.bytes) ∧
      (isTransient answer.1 = true →
        answer.2.position = session.reader.position ∧
          session.reader.source.FailedBetween answer.2.source) := by
  intro session answer
  obtain ⟨storedIndex, index, inv⟩ :=
    Session.run_refines (Session.start_refines parse source maxBytes) actions
  refine ⟨by simp [session, inv.outcomes], fun failed => ?_⟩
  rcases Reader.read_cases parse inv.reader with ⟨_, still, call⟩ | ⟨outcome, _⟩
  · exact ⟨still.position.trans inv.reader.position.symm, call⟩
  · have settled : isTransient answer.1 = false := by
      simp only [answer, session, outcome, specOutcome_not_transient]
    rw [settled] at failed
    exact False.elim (Bool.false_ne_true failed)

/-- One decimal digit. -/
def digit : List UInt8 → Option Nat
  | [byte] => if 48 ≤ byte ∧ byte ≤ 57 then some (byte.toNat - 48) else none
  | _ => none

/-- The lines `1`, `234`, an empty one and `5`, the last one unterminated. The chunks part a
`\r` from its `\n`; the fifth call fails inside the second line, the twelfth is the seek of a
restart, and the last one fails at the end of the input. -/
def digitSource : Source where
  bytes := [49, 13, 10, 50, 51, 52, 13, 10, 10, 53]
  cursor := 7
  plan call := if call = 4 ∨ call = 11 ∨ call = 17 then .fail 3 else .serve (call % 2)
  calls := 0

def digitActions : List Action :=
  [.read, .read, .read, .store, .read, .restart 9, .read, .read, .read, .read]

theorem session_outcomes_digits :
    let session := (Session.start Nat digitSource 2).run digit digitActions
    let answer := session.reader.read digit
    let expected : List (Outcome Nat) := [.ok (.item 1), .error ⟨.userComponent, true⟩,
      .error ⟨.userComponent, true⟩, .ok (.item 5), .ok .endOfInput]
    durable session.outcomes = expected ∧
      expected = (List.range 5).map (specOutcome digit 2 digitSource.bytes) ∧
      session.outcomes.length = 7 ∧ isTransient answer.1 = true ∧
      answer.2.position = session.reader.position := by
  intro session answer expected
  have spec := session_outcomes_eq_spec digit digitSource 2 digitActions
  have outcomes : durable session.outcomes = expected := by decide
  have same : expected = (List.range 5).map (specOutcome digit 2 digitSource.bytes) :=
    outcomes ▸ spec.1
  have failed : isTransient answer.1 = true := by decide
  exact ⟨outcomes, same, by decide, failed, (spec.2 failed).1⟩

end OxideBatch.Item.JsonLines
