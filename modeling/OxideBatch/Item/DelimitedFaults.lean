import OxideBatch.Item.DelimitedRestart
import OxideBatch.Item.JsonLinesRestart

/-! The delimited reader under transient faults. A `fill_buf` that fails before a
data record has given any byte is harmless. The header row and the seek are tried
once, and an interrupted record has lost the bytes it had already given. -/

namespace OxideBatch.Item

/-- The same source with every failure answered by one byte. -/
def Source.calmed (source : Source) : Source :=
  { source with
    plan := fun call =>
      match source.plan call with
      | .fail _ => .serve 0
      | .serve extra => .serve extra }

theorem Source.fillBuf_calmed {source : Source} (served : source.fillBuf = (some input, after)) :
    source.calmed.fillBuf = (some input, after.calmed) := by
  unfold Source.fillBuf at served
  cases answer : source.plan source.calls with
  | fail cursor => simp [answer] at served
  | serve extra =>
    simp only [answer, Prod.mk.injEq, Option.some.injEq] at served
    obtain ⟨rfl, rfl⟩ := served
    simp [Source.fillBuf, Source.calmed, answer, Source.rest]

theorem Source.seek_calmed {source : Source} (sought : source.seek target = (true, after)) :
    source.calmed.seek target = (true, after.calmed) := by
  unfold Source.seek at sought
  cases answer : source.plan source.calls with
  | fail cursor => simp [answer] at sought
  | serve extra =>
    simp only [answer, Prod.mk.injEq, true_and] at sought
    subst sought
    simp [Source.seek, Source.calmed, answer]

end OxideBatch.Item

namespace OxideBatch.Item.Delimited

open OxideBatch.Core
open OxideBatch.Item.JsonLines (isTransient durable durable_append)

variable {core : CsvCore}

private theorem reliable_calmed (source : Source) : Reliable source.calmed := by
  intro call cursor failed
  simp only [Source.calmed] at failed
  split at failed
  · cases failed
  · cases failed

/-- No `fill_buf` of the record that goes on at the cursor fails. -/
def recordServed (core : CsvCore) (maxRecordBytes : Nat) :
    Nat → RawState → core.State → Source → Bool
  | 0, _, _, _ => true
  | fuel + 1, raw, state, source =>
    match source.fillBuf with
    | (none, _) => false
    | (some input, source) =>
      let call := readRecord core raw state input
      let source := source.consume call.nin
      let raw := raw.absorb maxRecordBytes call
      match call.result with
      | .inputEmpty => recordServed core maxRecordBytes fuel raw call.state source
      | .outputFull =>
        recordServed core maxRecordBytes fuel (raw.growOutput maxRecordBytes) call.state source
      | .outputEndsFull => recordServed core maxRecordBytes fuel raw.growEnds call.state source
      | .record => true
      | .atEnd => true

/-- A `fill_buf` of the record that goes on at the cursor fails only while no
byte of it is taken, and leaves the cursor. -/
def recordUnbroken (core : CsvCore) (maxRecordBytes : Nat) :
    Nat → RawState → core.State → Source → Bool
  | 0, _, _, _ => true
  | fuel + 1, raw, state, source =>
    match source.fillBuf with
    | (none, after) => raw.consumed == 0 && after.cursor == source.cursor
    | (some input, source) =>
      let call := readRecord core raw state input
      let source := source.consume call.nin
      let raw := raw.absorb maxRecordBytes call
      match call.result with
      | .inputEmpty => recordUnbroken core maxRecordBytes fuel raw call.state source
      | .outputFull =>
        recordUnbroken core maxRecordBytes fuel (raw.growOutput maxRecordBytes) call.state source
      | .outputEndsFull => recordUnbroken core maxRecordBytes fuel raw.growEnds call.state source
      | .record => true
      | .atEnd => true

namespace Reader

/-- Every `fill_buf` of the record at the cursor is served. -/
def served (reader : Reader core) : Bool :=
  recordServed core reader.maxRecordBytes (3 * reader.source.rest.length + 3) .start reader.state
    reader.source

/-- No `fill_buf` fails once a byte of the record at the cursor is taken. -/
def unbroken (reader : Reader core) : Bool :=
  recordUnbroken core reader.maxRecordBytes (3 * reader.source.rest.length + 3) .start
    reader.state reader.source

/-- The header row a reader still has to read is served. -/
def headerServed (reader : Reader core) : Bool :=
  reader.seeked || !reader.hasHeaders || reader.served

/-- The source at which a reader that has its header row seeks. -/
def seekSource (reader : Reader core) : Source :=
  if reader.hasHeaders then reader.rawRecord.2.source else reader.source

/-- The seek a restored reader still has to make is served. -/
def seekServed (reader : Reader core) : Bool :=
  reader.seeked || reader.position.byte == 0 ||
    (reader.seekSource.seek reader.position.byte).1

/-- The next read call meets no failure in its header row or seek, and none
inside its record. -/
def undisturbed (reader : Reader core) : Bool :=
  reader.headerServed && reader.seekServed &&
    match reader.ensureHeadersAndSeek with
    | (.ok (), next) => next.unbroken
    | (.error _, _) => true

def calmed (reader : Reader core) : Reader core := { reader with source := reader.source.calmed }

/-- The outcomes of the first `count` read calls. -/
def outcomes (reader : Reader core) (count : Nat) : List Outcome :=
  (List.range count).map reader.outcomeAt

end Reader

private theorem rawLoop_calmed (maxRecordBytes fuel : Nat) {raw : RawState} {state : core.State}
    {source : Source} (served : recordServed core maxRecordBytes fuel raw state source = true) :
    rawLoop core maxRecordBytes fuel raw state source.calmed =
      ((rawLoop core maxRecordBytes fuel raw state source).1,
        (rawLoop core maxRecordBytes fuel raw state source).2.1,
        (rawLoop core maxRecordBytes fuel raw state source).2.2.calmed) := by
  induction fuel generalizing raw state source with
  | zero => rfl
  | succ fuel ih =>
    cases call : source.fillBuf with
    | mk offered after =>
      cases offered with
      | none => simp [recordServed, call] at served
      | some input =>
        have same := Source.fillBuf_calmed call
        have consumed : ∀ amount, after.calmed.consume amount = (after.consume amount).calmed :=
          fun amount => rfl
        simp only [recordServed, call] at served
        simp only [rawLoop, call, same, consumed]
        cases answer : (readRecord core raw state input).result with
        | inputEmpty => exact ih (by simpa only [answer] using served)
        | outputFull => exact ih (by simpa only [answer] using served)
        | outputEndsFull => exact ih (by simpa only [answer] using served)
        | record => rfl
        | atEnd => rfl

/-- An unfinished call that takes nothing leaves the parser at the boundary. -/
private theorem inside_of_nothing_taken {contract : core.Contract} {state : core.State}
    (inside : contract.Inside state text 0 [] []) (feeds : Feeds text 0 input)
    (room endsRoom : Nat)
    (unfinished : (core.readRecord state input room endsRoom).result ≠ .record)
    (going : (core.readRecord state input room endsRoom).result ≠ .atEnd)
    (nothing : (core.readRecord state input room endsRoom).nin = 0) :
    contract.Inside (core.readRecord state input room endsRoom).state text 0 [] [] := by
  obtain ⟨next, output, ends⟩ :=
    contract.call_unfinished room endsRoom inside feeds unfinished going
  have noOutput := List.length_eq_zero_iff.mp (Nat.le_zero.mp (nothing ▸ output))
  have noEnds := List.length_eq_zero_iff.mp (Nat.le_zero.mp (nothing ▸ ends))
  simpa [nothing, noOutput, noEnds] using next

/-- An unbroken record is read as from the calmed source, or a `fill_buf` fails
with the source and the parser still at its boundary. -/
private theorem rawLoop_unbroken (contract : core.Contract) (maxRecordBytes fuel : Nat)
    {raw : RawState}
    {state : core.State} {source : Source}
    (inside : raw.consumed = 0 → contract.Inside state source.rest 0 [] [])
    (unbroken : recordUnbroken core maxRecordBytes fuel raw state source = true) :
    (∃ state' after, rawLoop core maxRecordBytes fuel raw state source = (none, state', after) ∧
      raw.consumed = 0 ∧ source.Follows after ∧ after.cursor = source.cursor ∧
      contract.Inside state' source.rest 0 [] []) ∨
    rawLoop core maxRecordBytes fuel raw state source.calmed =
      ((rawLoop core maxRecordBytes fuel raw state source).1,
        (rawLoop core maxRecordBytes fuel raw state source).2.1,
        (rawLoop core maxRecordBytes fuel raw state source).2.2.calmed) := by
  induction fuel generalizing raw state source with
  | zero => exact .inr rfl
  | succ fuel ih =>
    rcases source.fillBuf_cases with ⟨after, call, follows, _⟩ | ⟨after, extra, call, follows, kept⟩
    · left
      simp only [recordUnbroken, call, Bool.and_eq_true, beq_iff_eq] at unbroken
      exact ⟨state, after, by simp only [rawLoop, call], unbroken.1, follows, unbroken.2,
        inside unbroken.1⟩
    obtain ⟨input, offered⟩ : ∃ input, source.rest.take (extra + 1) = input := ⟨_, rfl⟩
    rw [offered] at call
    have feeds : Feeds source.rest 0 input := by
      rw [← offered]
      exact ⟨List.take_prefix _ _, fun empty => by simpa using empty⟩
    have same := Source.fillBuf_calmed call
    have consumed : ∀ amount, after.calmed.consume amount = (after.consume amount).calmed :=
      fun amount => rfl
    have onward := follows.trans (after.consume_follows (readRecord core raw state input).nin)
    simp only [recordUnbroken, call] at unbroken
    simp only [rawLoop, call, same, consumed]
    -- an unfinished call that took nothing repeats the same situation
    have continues : ∀ {next : RawState},
        (readRecord core raw state input).result ≠ .record →
        (readRecord core raw state input).result ≠ .atEnd →
        next.consumed = raw.consumed + (readRecord core raw state input).nin →
        recordUnbroken core maxRecordBytes fuel next (readRecord core raw state input).state
          (after.consume (readRecord core raw state input).nin) = true →
        (∃ state' final, rawLoop core maxRecordBytes fuel next
            (readRecord core raw state input).state
            (after.consume (readRecord core raw state input).nin) = (none, state', final) ∧
          raw.consumed = 0 ∧ source.Follows final ∧ final.cursor = source.cursor ∧
          contract.Inside state' source.rest 0 [] []) ∨
        rawLoop core maxRecordBytes fuel next (readRecord core raw state input).state
            (after.consume (readRecord core raw state input).nin).calmed =
          ((rawLoop core maxRecordBytes fuel next (readRecord core raw state input).state
              (after.consume (readRecord core raw state input).nin)).1,
            (rawLoop core maxRecordBytes fuel next (readRecord core raw state input).state
              (after.consume (readRecord core raw state input).nin)).2.1,
            (rawLoop core maxRecordBytes fuel next (readRecord core raw state input).state
              (after.consume (readRecord core raw state input).nin)).2.2.calmed) := by
      intro next unfinished going total later
      have stands : next.consumed = 0 →
          (after.consume (readRecord core raw state input).nin).rest = source.rest ∧
          (after.consume (readRecord core raw state input).nin).cursor = source.cursor := by
        intro zero
        have nothing : (readRecord core raw state input).nin = 0 := by omega
        rw [nothing, Source.consume_rest, List.drop_zero, Source.consume_cursor, kept]
        exact ⟨by rw [Source.rest, follows.bytes, kept]; rfl, rfl⟩
      have still : next.consumed = 0 → contract.Inside (readRecord core raw state input).state
          (after.consume (readRecord core raw state input).nin).rest 0 [] [] := by
        intro zero
        rw [(stands zero).1]
        exact inside_of_nothing_taken (inside (by omega)) feeds _ _ unfinished going
          (by simp only [readRecord] at total; omega)
      rcases ih still later with ⟨state', final, failed, zero, further, stays, boundary⟩ | alike
      · left
        rw [(stands zero).1] at boundary
        rw [(stands zero).2] at stays
        exact ⟨state', final, failed, by omega, onward.trans further, stays, boundary⟩
      · exact .inr alike
    cases answer : (readRecord core raw state input).result with
    | inputEmpty =>
      exact continues (by simp [answer]) (by simp [answer]) (by simp)
        (by simpa only [answer] using unbroken)
    | outputFull =>
      exact continues (by simp [answer]) (by simp [answer]) (by simp)
        (by simpa only [answer] using unbroken)
    | outputEndsFull =>
      exact continues (by simp [answer]) (by simp [answer]) (by simp)
        (by simpa only [answer] using unbroken)
    | record => exact .inr rfl
    | atEnd => exact .inr rfl

/-- A served record is read alike from the calmed source. -/
private theorem rawRecord_calmed {reader : Reader core} (served : reader.served = true) :
    reader.calmed.rawRecord = (reader.rawRecord.1, reader.rawRecord.2.calmed) := by
  have same := rawLoop_calmed reader.maxRecordBytes (3 * reader.source.rest.length + 3) served
  have length : reader.source.calmed.rest = reader.source.rest := rfl
  simp only [Reader.rawRecord, Reader.calmed, readRawRecord, length, same]

private theorem readHeaders_calmed (reader : Reader core) (target : StoredPosition)
    (served : reader.hasHeaders = true → reader.served = true) :
    reader.calmed.readHeaders target =
      ((reader.readHeaders target).1, (reader.readHeaders target).2.calmed) := by
  have flag : reader.calmed.hasHeaders = reader.hasHeaders := rfl
  by_cases headed : reader.hasHeaders = true
  · have same := rawRecord_calmed (served headed)
    simp only [Reader.readHeaders, flag, if_pos headed, same]
    generalize reader.rawRecord = answer
    obtain ⟨raw, next⟩ := answer
    cases raw with
    | none => rfl
    | some record =>
      cases record with
      | oversized consumed => rfl
      | eof => rfl
      | fields consumed output ends =>
        cases decoded : decodeFields output ends with
        | error error => simp only [decoded]
        | ok fields =>
          simp only [decoded]
          rfl
  · simp only [Reader.readHeaders, flag, if_neg headed]

private theorem readRow_calmed {reader : Reader core}
    (same : reader.calmed.rawRecord = (reader.rawRecord.1, reader.rawRecord.2.calmed)) :
    reader.calmed.readRow = (reader.readRow.1, reader.readRow.2.calmed) := by
  have moved : ∀ (next : Reader core) consumed,
      next.calmed.moved consumed = (next.moved consumed).calmed := fun _ _ => rfl
  simp only [Reader.readRow, same]
  generalize reader.rawRecord = answer
  obtain ⟨raw, next⟩ := answer
  have counted : ∀ count, next.calmed.checkFieldCount count =
      ((next.checkFieldCount count).1, (next.checkFieldCount count).2.calmed) := by
    intro count
    rw [checkFieldCount_eq, checkFieldCount_eq]
    rfl
  cases raw with
  | none => rfl
  | some record =>
    cases record with
    | oversized consumed => rfl
    | eof => rfl
    | fields consumed output ends =>
      simp only [counted]
      generalize next.checkFieldCount ends.length = checked
      obtain ⟨accepted, kept⟩ := checked
      cases accepted with
      | false => rfl
      | true =>
        cases decoded : decodeFields output ends with
        | error error => simp only [moved]
        | ok fields =>
          simp only [moved]
          rfl

/-- The header step moves the source no further than the header row. -/
private theorem readHeaders_source (reader : Reader core) (target : StoredPosition) :
    (reader.readHeaders target).2.source = reader.seekSource := by
  by_cases headed : reader.hasHeaders = true
  · simp only [Reader.readHeaders, Reader.seekSource, if_pos headed]
    generalize reader.rawRecord = answer
    obtain ⟨raw, next⟩ := answer
    cases raw with
    | none => rfl
    | some record =>
      cases record with
      | oversized consumed => rfl
      | eof => rfl
      | fields consumed output ends =>
        cases decoded : decodeFields output ends with
        | error error => simp only [decoded]
        | ok fields => simp only [decoded]
  · simp only [Reader.readHeaders, Reader.seekSource, if_neg headed]

private theorem seekTarget_calmed {reader : Reader core} (target : StoredPosition)
    (served : 0 < target.byte → (reader.source.seek target.byte).1 = true) :
    reader.calmed.seekTarget target =
      ((reader.seekTarget target).1, (reader.seekTarget target).2.calmed) := by
  by_cases restored : 0 < target.byte
  · cases call : reader.source.seek target.byte with
    | mk done after =>
      have success := served restored
      simp only [call] at success
      subst success
      have same : reader.calmed.source.seek target.byte = (true, after.calmed) :=
        Source.seek_calmed call
      simp only [Reader.seekTarget, if_pos restored, call, same]
      rfl
  · simp only [Reader.seekTarget, if_neg restored]

/-- The header and seek of a read whose failures come later, if at all. -/
private theorem ensureHeadersAndSeek_calmed {reader : Reader core}
    (header : reader.headerServed = true)
    (seek : reader.seekServed = true) :
    reader.calmed.ensureHeadersAndSeek =
      (reader.ensureHeadersAndSeek.1, reader.ensureHeadersAndSeek.2.calmed) := by
  have flag : reader.calmed.seeked = reader.seeked := rfl
  by_cases latched : reader.seeked = true
  · simp only [Reader.ensureHeadersAndSeek, flag, if_pos latched]
  · have headed : reader.hasHeaders = true → reader.served = true := fun headed => by
      simpa [Reader.headerServed, latched, headed] using header
    have headerSame := readHeaders_calmed { reader with seeked := true } reader.position headed
    have stands := readHeaders_source { reader with seeked := true } reader.position
    have entered : ({ reader.calmed with seeked := true } : Reader core).readHeaders
        reader.calmed.position = ({ reader with seeked := true } : Reader core).calmed.readHeaders
          reader.position := rfl
    simp only [Reader.ensureHeadersAndSeek, flag, if_neg latched, entered, headerSame]
    generalize ({ reader with seeked := true } : Reader core).readHeaders reader.position = answer
      at *
    obtain ⟨result, next⟩ := answer
    cases result with
    | error error => rfl
    | ok done =>
      refine seekTarget_calmed reader.position fun restored => ?_
      have sought : (reader.seekSource.seek reader.position.byte).1 = true := by
        simpa [Reader.seekServed, latched, Nat.ne_of_gt restored] using seek
      rw [stands]
      exact sought

/-- A row whose record is unbroken is read as from the calmed source, or a
`fill_buf` fails with the source and the parser still at its boundary. -/
private theorem readRow_cases (contract : core.Contract) {reader : Reader core}
    (inside : contract.Inside reader.state reader.source.rest 0 [] [])
    (unbroken : reader.unbroken = true) :
    (∃ state after, reader.readRow = (.error transient, { reader with state, source := after }) ∧
      reader.source.Follows after ∧ after.cursor = reader.source.cursor ∧
      contract.Inside state reader.source.rest 0 [] []) ∨
    reader.calmed.readRow = (reader.readRow.1, reader.readRow.2.calmed) := by
  rcases rawLoop_unbroken contract reader.maxRecordBytes _ (fun _ => inside) unbroken with
    ⟨state, after, failed, _, follows, stays, boundary⟩ | same
  · left
    refine ⟨state, after, ?_, follows, stays, boundary⟩
    simp only [Reader.readRow, Reader.rawRecord, readRawRecord, failed]
  · right
    apply readRow_calmed
    have length : reader.source.calmed.rest = reader.source.rest := rfl
    simp only [Reader.rawRecord, Reader.calmed, readRawRecord, length, same]

section Faults

variable {contract : core.Contract} {dialect : Dialect} {bytes : List UInt8}
  {reader : Reader core}

/-- The reader is past its header and seek, and without further faults it would
deliver the specified outcomes from `delivered` on. -/
def Owes (reader : Reader core) (contract : core.Contract) (dialect : Dialect)
    (spec : Nat → Outcome) (delivered : Nat) : Prop :=
  (∃ text baseline headers, Settled reader.calmed contract dialect text baseline headers) ∧
    ∀ index, reader.calmed.outcomeAt index = spec (delivered + index)

theorem Settled.read_settled {baseline : Option Nat} {headers : Option (List String)}
    (settled : Settled reader contract dialect text baseline headers) :
    ∃ text' baseline', Settled reader.read.2 contract dialect text' baseline' headers := by
  cases found : contract.scan text with
  | none => exact ⟨_, _, (settled.read_end found).2⟩
  | some parsed => exact ⟨_, _, (settled.read_record found).2.1⟩

/-- A failed `fill_buf` before the record leaves everything owed. -/
theorem Owes.retry {spec : Nat → Outcome} {state : core.State}
    (owes : Owes reader contract dialect spec delivered)
    (follows : reader.source.Follows after) (stays : after.cursor = reader.source.cursor)
    (boundary : contract.Inside state reader.source.rest 0 [] []) :
    Owes { reader with state, source := after } contract dialect spec delivered := by
  obtain ⟨⟨text, baseline, headers, settled⟩, owed⟩ := owes
  have rest : after.rest = reader.source.rest := by rw [Source.rest, follows.bytes, stays]; rfl
  have there : reader.source.rest = text := settled.rest
  have still : Settled ({ reader with state, source := after } : Reader core).calmed contract
      dialect text baseline headers :=
    ⟨settled.seeked, settled.sameMax, settled.sameFlexible, settled.sameBaseline,
      settled.sameHeaders, rest.trans settled.rest, there ▸ boundary, reliable_calmed after⟩
  refine ⟨⟨text, baseline, headers, still⟩, fun index => ?_⟩
  rw [still.outcomeAt, ← settled.outcomeAt]
  exact owed index

theorem Owes.inside {spec : Nat → Outcome} (owes : Owes reader contract dialect spec delivered) :
    contract.Inside reader.state reader.source.rest 0 [] [] := by
  obtain ⟨⟨text, _, _, settled⟩, _⟩ := owes
  have there : reader.source.rest = text := settled.rest
  rw [there]
  exact settled.inside

theorem Owes.deliver {spec : Nat → Outcome} (owes : Owes reader contract dialect spec delivered)
    (same : reader.calmed.read = (reader.read.1, reader.read.2.calmed)) :
    reader.read.1 = spec delivered ∧
      Owes reader.read.2 contract dialect spec (delivered + 1) := by
  obtain ⟨⟨text, baseline, headers, settled⟩, owed⟩ := owes
  refine ⟨?_, ?_, fun index => ?_⟩
  · have first := owed 0
    rwa [Reader.outcomeAt, Reader.after, same] at first
  · obtain ⟨text', baseline', next⟩ := settled.read_settled
    rw [same] at next
    exact ⟨text', baseline', headers, next⟩
  · have later := owed (index + 1)
    rw [Reader.outcomeAt_succ, same] at later
    rw [later]
    congr 1
    omega

theorem Owes.seeked {spec : Nat → Outcome} (owes : Owes reader contract dialect spec delivered) :
    reader.seeked = true := by
  obtain ⟨⟨_, _, _, settled⟩, _⟩ := owes
  exact settled.seeked

/-- One read past header and seek: a transient error that changes nothing owed,
or the next specified outcome. -/
theorem Owes.read_cases {spec : Nat → Outcome}
    (owes : Owes reader contract dialect spec delivered) (unbroken : reader.unbroken = true) :
    (reader.read.1 = .error transient ∧ Owes reader.read.2 contract dialect spec delivered) ∨
    (reader.read.1 = spec delivered ∧
      Owes reader.read.2 contract dialect spec (delivered + 1)) := by
  have direct : reader.read = reader.readRow := by
    rw [Reader.read, ensureHeadersAndSeek_settled owes.seeked]
  have directCalmed : reader.calmed.read = reader.calmed.readRow := by
    have latched : reader.calmed.seeked = true := owes.seeked
    rw [Reader.read, ensureHeadersAndSeek_settled latched]
  rcases readRow_cases contract owes.inside unbroken with
    ⟨state, after, failed, follows, stays, boundary⟩ | same
  · left
    rw [direct, failed]
    exact ⟨rfl, owes.retry follows stays boundary⟩
  · right
    exact owes.deliver (by rw [directCalmed, direct, same])

/-- The first read of a reader that is fresh but for its faults to come. -/
theorem Fresh.read_cases (fresh : Fresh reader.calmed contract dialect bytes)
    (calm : reader.undisturbed = true) :
    let spec := rowAt (freshRows contract dialect bytes reader.position.byte)
    (reader.read.1 = .error transient ∧ Owes reader.read.2 contract dialect spec 0) ∨
    (reader.read.1 = spec 0 ∧ Owes reader.read.2 contract dialect spec 1) := by
  intro spec
  have specified : ∀ index, reader.calmed.outcomeAt index = spec index := fresh.outcomeAt
  simp only [Reader.undisturbed, Bool.and_eq_true] at calm
  obtain ⟨⟨header, seek⟩, row⟩ := calm
  have same := ensureHeadersAndSeek_calmed header seek
  cases entered : reader.ensureHeadersAndSeek with
  | mk result next =>
    rw [entered] at same row
    rcases fresh.ensure_cases with
      ⟨span, other, _, _, ensured, settled, _⟩ | ⟨other, _, ensured, delivers⟩
    · -- a malformed header row is an outcome of its own
      right
      rw [ensured] at same
      obtain ⟨rfl, rfl⟩ := Prod.mk.inj same
      have failed : reader.read = (.error malformed, next) := by rw [Reader.read, entered]
      have calmFailed : reader.calmed.read = (.error malformed, next.calmed) := by
        rw [Reader.read, ensured]
      refine ⟨?_, ⟨_, _, _, by rw [failed]; exact settled⟩, fun index => ?_⟩
      · rw [failed, ← specified 0, Reader.outcomeAt, Reader.after, calmFailed]
      · have later := specified (index + 1)
        rw [Reader.outcomeAt_succ, calmFailed] at later
        rw [failed, later, Nat.add_comm]
    · rw [ensured] at same
      obtain ⟨rfl, rfl⟩ := Prod.mk.inj same
      have latched : next.seeked = true := delivers.seeked
      have onward : reader.read = next.read := read_of_ensure entered latched
      have calmOnward : reader.calmed.read = next.calmed.read :=
        read_of_ensure ensured delivers.seeked
      obtain ⟨text, settled, _⟩ := delivers
      have owes : Owes next contract dialect spec 0 := by
        refine ⟨⟨_, _, _, settled⟩, fun index => ?_⟩
        rw [← outcomeAt_of_read calmOnward, specified, Nat.zero_add]
      rw [onward]
      exact owes.read_cases row

private theorem row_not_transient (dialect : Dialect) (headers : Option (List String))
    (baseline : Option Nat) (parsed : Parsed) :
    isTransient (row dialect headers baseline parsed) = false := by
  unfold row
  split
  · rfl
  · split
    · rfl
    · unfold decodeRow
      split
      · next error failed => rw [decodeFields_error failed]; rfl
      · rfl

private theorem rows_not_transient {headers : Option (List String)} {baseline : Option Nat}
    (member : outcome ∈ rows dialect headers baseline records) : isTransient outcome = false := by
  obtain ⟨parsed, _, same⟩ := List.mem_map.mp member
  rw [← same]
  exact row_not_transient ..

private theorem rowAt_not_transient (contract : core.Contract) (dialect : Dialect)
    (bytes : List UInt8)
    (target index : Nat) :
    isTransient (rowAt (freshRows contract dialect bytes target) index) = false := by
  unfold rowAt
  cases inside : (freshRows contract dialect bytes target)[index]? with
  | none => rfl
  | some outcome =>
    have member := List.mem_of_getElem? inside
    unfold freshRows at member
    split at member
    · rcases List.mem_cons.mp member with same | later
      · rw [same]; rfl
      · exact rows_not_transient later
    · exact rows_not_transient member

theorem Reader.outcomes_succ (reader : Reader core) (count : Nat) :
    reader.outcomes (count + 1) = reader.outcomes count ++ [(reader.after count).read.1] := by
  simp [outcomes, List.range_succ, outcomeAt]

/-- Along undisturbed reads the outcomes that are not transient are the
specified ones. -/
theorem Fresh.run_cases (fresh : Fresh reader.calmed contract dialect bytes) (count : Nat)
    (calm : ∀ index < count, (reader.after index).undisturbed = true) :
    let spec := rowAt (freshRows contract dialect bytes reader.position.byte)
    ∃ delivered, durable (reader.outcomes count) = (List.range delivered).map spec ∧
      (0 < count → Owes (reader.after count) contract dialect spec delivered) := by
  intro spec
  have kept : ∀ delivered, durable [spec delivered] = [spec delivered] := fun delivered => by
    simp [durable, spec, rowAt_not_transient]
  have dropped : durable [(.error transient : Outcome)] = [] := by
    simp [durable, isTransient, transient, ReaderError.withCategory]
  induction count with
  | zero => exact ⟨0, rfl, fun absurd => False.elim (Nat.lt_irrefl 0 absurd)⟩
  | succ count ih =>
    obtain ⟨delivered, sofar, owes⟩ := ih fun index below => calm index (by omega)
    have now := calm count (Nat.lt_succ_self _)
    have cases : ((reader.after count).read.1 = .error transient ∧
          Owes (reader.after count).read.2 contract dialect spec delivered) ∨
        ((reader.after count).read.1 = spec delivered ∧
          Owes (reader.after count).read.2 contract dialect spec (delivered + 1)) := by
      cases count with
      | zero =>
        have none : delivered = 0 := by
          have size := congrArg List.length sofar
          simpa [Reader.outcomes, durable] using size.symm
        subst none
        exact fresh.read_cases now
      | succ count =>
        have owing := owes (Nat.succ_pos count)
        have unbroken : (reader.after (count + 1)).unbroken = true := by
          simp only [Reader.undisturbed, ensureHeadersAndSeek_settled owing.seeked,
            Bool.and_eq_true] at now
          exact now.2
        exact owing.read_cases unbroken
    rw [Reader.outcomes_succ, durable_append, sofar]
    rcases cases with ⟨outcome, still⟩ | ⟨outcome, next⟩
    · exact ⟨delivered, by rw [outcome, dropped, List.append_nil], fun _ => still⟩
    · exact ⟨delivered + 1, by rw [outcome, kept, List.range_succ, List.map_append]; rfl,
        fun _ => next⟩

end Faults

/-- A reader over a fresh handle on `bytes`, opened from an inherited position. -/
def Reader.opened (core : CsvCore) (dialect : Dialect) (bytes : List UInt8)
    (plan : Nat → IoAnswer) (inherited : Option StoredPosition) : Reader core :=
  (Reader.new core ⟨bytes, 0, plan, 0⟩ dialect).openStream inherited

/-- A plan without a failure, cut into chunks of the given sizes. -/
def steady (chunks : Nat → Nat) : Nat → IoAnswer := fun call => .serve (chunks call)

/-- The faults of a run are invisible: with the transient errors removed, the
outcomes of its first `count` read calls are those of a run without faults. -/
def FaultsHidden (core : CsvCore) (dialect : Dialect) (bytes : List UInt8)
    (inherited : Option StoredPosition) (plan : Nat → IoAnswer) (chunks : Nat → Nat)
    (count : Nat) : Prop :=
  let read := durable ((Reader.opened core dialect bytes plan inherited).outcomes count)
  read = (Reader.opened core dialect bytes (steady chunks) inherited).outcomes read.length

/-- Faults stay invisible in every run that meets no failure in its header row
or seek and none inside a record. -/
theorem undisturbed_reads_hide_faults (contract : core.Contract) (dialect : Dialect)
    (bytes : List UInt8) (inherited : Option StoredPosition) (plan : Nat → IoAnswer)
    (chunks : Nat → Nat) (count : Nat)
    (calm : ∀ index < count,
      ((Reader.opened core dialect bytes plan inherited).after index).undisturbed = true) :
    FaultsHidden core dialect bytes inherited plan chunks count := by
  have faulty : Fresh (Reader.opened core dialect bytes plan inherited).calmed contract dialect
      bytes :=
    Reader.new_fresh contract dialect (Source.calmed ⟨bytes, 0, plan, 0⟩) inherited rfl
      (reliable_calmed _)
  have faultless : Fresh (Reader.opened core dialect bytes (steady chunks) inherited) contract
      dialect bytes :=
    Reader.new_fresh contract dialect ⟨bytes, 0, steady chunks, 0⟩ inherited rfl
      fun call cursor failed => by cases failed
  obtain ⟨delivered, read, _⟩ := faulty.run_cases count calm
  have specified : ∀ index, (Reader.opened core dialect bytes (steady chunks) inherited).outcomeAt
      index = rowAt (freshRows contract dialect bytes (inherited.getD .start).byte) index :=
    faultless.outcomeAt
  have size : (durable ((Reader.opened core dialect bytes plan inherited).outcomes count)).length =
      delivered := by simp [read]
  have owed : (Reader.opened core dialect bytes (steady chunks) inherited).outcomes delivered =
      (List.range delivered).map
        (rowAt (freshRows contract dialect bytes (inherited.getD .start).byte)) :=
    List.map_congr_left fun index _ => specified index
  unfold FaultsHidden
  simp only [size]
  rw [owed]
  exact read

/-- The header row of `"h\na\nb\n"` restored at byte 4 is served, and the first
`fill_buf` of the record after the seek fails. -/
theorem undisturbed_reads_hide_faults_restored :
    let dialect := { Dialect.csv with hasHeaders := true }
    let plan : Nat → IoAnswer := fun call => if call = 4 then .fail 4 else .serve 63
    FaultsHidden (csvMachine dialect.toCoreSettings).core dialect [104, 10, 97, 10, 98, 10]
      (some ⟨4, 3, 1⟩) plan (fun _ => 63) 2 :=
  undisturbed_reads_hide_faults (csvMachine _).contract { Dialect.csv with hasHeaders := true } _ _
    _ _ 2 (by decide)

/-- On the same restart a failure before the header row makes the retried call
deliver the header row itself, which lies before the restored position. -/
theorem header_fault_replays_source :
    let dialect := { Dialect.csv with hasHeaders := true }
    let plan : Nat → IoAnswer := fun call => if call = 0 then .fail 0 else .serve 63
    let reader := Reader.opened (csvMachine dialect.toCoreSettings).core dialect
      [104, 10, 97, 10, 98, 10] plan (some ⟨4, 3, 1⟩)
    reader.outcomeAt 1 = .ok (.item ⟨["h"], none⟩) ∧
      ¬ FaultsHidden (csvMachine dialect.toCoreSettings).core dialect [104, 10, 97, 10, 98, 10]
        (some ⟨4, 3, 1⟩) plan (fun _ => 63) 2 := by
  constructor
  · decide
  · unfold FaultsHidden
    decide

end OxideBatch.Item.Delimited
