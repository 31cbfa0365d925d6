import OxideBatch.Item.CsvMachine
import OxideBatch.Item.DelimitedRows

/-! Restart and position of the delimited reader. The first read settles the
reader unless the header row is malformed, and a restart reproduces the
remaining outcomes exactly when it reproduces the baseline field count. -/

namespace OxideBatch.Item.Delimited

open OxideBatch.Core

variable {core : CsvCore}

/-- What the first record of a source is to a dialect. -/
inductive HeaderRow where
  | absent
  | malformed (span : Nat)
  | names (span : Nat) (fields : List String)
  deriving DecidableEq, Repr

/-- The header row of a source: absent without a header dialect or a record,
malformed when oversized or undecodable. -/
def headerRow (contract : core.Contract) (dialect : Dialect) (bytes : List UInt8) : HeaderRow :=
  if dialect.hasHeaders then
    match contract.scan bytes with
    | none => .absent
    | some parsed =>
      if dialect.maxRecordBytes < parsed.span then .malformed parsed.span
      else
        match decodeFields parsed.output parsed.ends with
        | .error _ => .malformed parsed.span
        | .ok fields => .names parsed.span fields
  else .absent

private theorem headerRow_names {contract : core.Contract} {dialect : Dialect} {bytes : List UInt8}
    {span : Nat} {fields : List String}
    (kind : headerRow contract dialect bytes = .names span fields) :
    ∃ parsed, contract.scan bytes = some parsed ∧ ¬ dialect.maxRecordBytes < parsed.span ∧
      decodeFields parsed.output parsed.ends = .ok fields ∧ parsed.span = span := by
  unfold headerRow at kind
  split at kind
  · split at kind
    · cases kind
    · rename_i parsed found
      split at kind
      · cases kind
      · rename_i within
        split at kind
        · cases kind
        · rename_i decoded
          cases kind
          exact ⟨parsed, found, within, decoded, rfl⟩
  · cases kind

/-- With headers declared, no header row means no record. -/
private theorem scan_of_absent {contract : core.Contract} {dialect : Dialect} {bytes : List UInt8}
    (flagged : dialect.hasHeaders = true) (kind : headerRow contract dialect bytes = .absent) :
    contract.scan bytes = none := by
  rw [headerRow, if_pos flagged] at kind
  split at kind
  · assumption
  · split at kind
    · cases kind
    · split at kind
      · cases kind
      · cases kind

namespace HeaderRow

def headers : HeaderRow → Option (List String)
  | .names _ fields => some fields
  | _ => none

/-- The field count a header row fixes for a dialect that rejects ragged rows. -/
def baseline (flexible : Bool) : HeaderRow → Option Nat
  | .names _ fields => if flexible then none else some fields.length
  | _ => none

/-- The byte at which a reader opened at `target` starts delivering rows. -/
def dataStart (target : Nat) : HeaderRow → Nat
  | .names span _ => if target = 0 then span else target
  | _ => target

end HeaderRow

/-- A new reader over a source at byte 0, before its first read. -/
structure Fresh (reader : Reader core) (contract : core.Contract) (dialect : Dialect)
    (bytes : List UInt8) : Prop where
  seeked : reader.seeked = false
  sameHeaderFlag : reader.hasHeaders = dialect.hasHeaders
  sameMax : reader.maxRecordBytes = dialect.maxRecordBytes
  sameFlexible : reader.flexible = dialect.flexible
  sameBaseline : reader.firstFieldCount = none
  sameHeaders : reader.headers = none
  cursor : reader.source.cursor = 0
  sameBytes : reader.source.bytes = bytes
  inside : contract.Inside reader.state bytes 0 [] []
  reliable : Reliable reader.source

theorem Reader.new_fresh (contract : core.Contract) (dialect : Dialect) (source : Source)
    (inherited : Option StoredPosition) (atStart : source.cursor = 0)
    (reliable : Reliable source) :
    Fresh ((Reader.new core source dialect).openStream inherited) contract dialect
      source.bytes :=
  ⟨rfl, rfl, rfl, rfl, rfl, rfl, atStart, rfl, contract.start_inside _, reliable⟩

section First

variable {contract : core.Contract} {dialect : Dialect} {bytes : List UInt8}
  {target : StoredPosition} {reader : Reader core}

/-- The seek of a reader whose header, if any, is done. -/
private theorem seekTarget_settled {baseline : Option Nat} {headers : Option (List String)}
    (settled : Settled reader contract dialect text baseline headers)
    (restored : 0 < target.byte) :
    ∃ next, reader.seekTarget target = (.ok (), next) ∧
      Settled next contract dialect (reader.source.bytes.drop target.byte) baseline headers ∧
      next.position = reader.position ∧ next.source.cursor = target.byte ∧
      next.source.bytes = reader.source.bytes := by
  rcases reader.source.seek_cases target.byte with
    ⟨after, _, _, failed⟩ | ⟨after, sought, follows, landed⟩
  · exact False.elim (settled.reliable.not_failed failed)
  · refine ⟨{ reader with
        source := after, state := core.setLine (core.reset reader.state) target.line },
      by simp only [Reader.seekTarget, if_pos restored, sought], ?_, rfl, landed, follows.bytes⟩
    refine ⟨settled.seeked, settled.sameMax, settled.sameFlexible, settled.sameBaseline,
      settled.sameHeaders, ?_, ?_, settled.reliable.follows follows⟩
    · rw [Source.rest, follows.bytes, landed]
    · exact contract.setLine_inside _ (contract.reset_inside _ _)

/-- A settled reader and the records it still has to deliver. Unless none is
left, the stored byte is the physical offset of the next one. -/
def Delivers (reader : Reader core) (contract : core.Contract) (dialect : Dialect)
    (bytes : List UInt8) (records : List Parsed) (baseline : Option Nat)
    (headers : Option (List String)) : Prop :=
  ∃ text, Settled reader contract dialect text baseline headers ∧
    contract.records text = records ∧ reader.source.bytes = bytes ∧
    (reader.position.byte = reader.source.cursor ∨ contract.scan text = none)

/-- The header row is malformed: the reader is left behind it with the stored position
untouched. -/
def HeaderFails (reader : Reader core) (contract : core.Contract) (dialect : Dialect)
    (bytes : List UInt8) : Prop :=
  ∃ span next, headerRow contract dialect bytes = .malformed span ∧ 0 < span ∧
    ({ reader with seeked := true }).readHeaders reader.position = (.error malformed, next) ∧
    Settled next contract dialect (bytes.drop span) none none ∧
    next.position = reader.position ∧ next.source.cursor = span ∧ next.source.bytes = bytes

/-- The header row, if any, is read; on an initial execution it joins the position. -/
def HeaderPasses (reader : Reader core) (contract : core.Contract) (dialect : Dialect)
    (bytes : List UInt8) : Prop :=
  ∃ next text, (∀ span, headerRow contract dialect bytes ≠ .malformed span) ∧
    ({ reader with seeked := true }).readHeaders reader.position = (.ok (), next) ∧
    Settled next contract dialect text
      ((headerRow contract dialect bytes).baseline dialect.flexible)
      (headerRow contract dialect bytes).headers ∧
    next.source.bytes = bytes ∧
    (0 < reader.position.byte → next.position = reader.position) ∧
    (reader.position.byte = 0 →
      contract.records text =
        contract.records (bytes.drop ((headerRow contract dialect bytes).dataStart 0)) ∧
      (next.position.byte = next.source.cursor ∨ contract.scan text = none))

theorem Fresh.begun (fresh : Fresh reader contract dialect bytes) :
    Settled { reader with seeked := true } contract dialect bytes none none := by
  have rest : reader.source.rest = bytes := by
    rw [Source.rest, fresh.sameBytes, fresh.cursor, List.drop_zero]
  exact ⟨rfl, fresh.sameMax, fresh.sameFlexible, fresh.sameBaseline, fresh.sameHeaders, rest,
    fresh.inside, fresh.reliable⟩

/-- A dialect without headers reads nothing ahead of its rows. -/
theorem Fresh.passes_unheaded (fresh : Fresh reader contract dialect bytes)
    (flagged : dialect.hasHeaders = false) : HeaderPasses reader contract dialect bytes := by
  have kind : headerRow contract dialect bytes = .absent := by simp [headerRow, flagged]
  refine ⟨{ reader with seeked := true }, bytes, by simp [kind], ?_, ?_, fresh.sameBytes,
    fun _ => rfl, fun zero => ⟨?_, .inl ?_⟩⟩
  · simp [Reader.readHeaders, fresh.sameHeaderFlag, flagged]
  · simpa [kind, HeaderRow.baseline, HeaderRow.headers] using fresh.begun
  · simp [kind, HeaderRow.dataStart]
  · exact zero.trans fresh.cursor.symm

/-- The raw read of the first row, and what settles behind it. -/
theorem Fresh.header_read (fresh : Fresh reader contract dialect bytes) :
    ∃ state source,
      ({ reader with seeked := true }).rawRecord =
        (some (expectedRaw contract dialect.maxRecordBytes bytes),
          { reader with seeked := true, state, source }) ∧
      source.cursor = contract.reach bytes ∧ source.bytes = bytes ∧
      ∀ baseline headers position,
        Settled { reader with
          seeked := true, state, source, firstFieldCount := baseline, headers, position }
          contract dialect (remainder contract bytes) baseline headers := by
  have begun := fresh.begun
  obtain ⟨state, source, raw, follows, cursor, moved, inside⟩ :=
    rawRecord_eq begun.sameMax begun.rest begun.inside begun.reliable
  have start : ({ reader with seeked := true } : Reader core).source.cursor = 0 := fresh.cursor
  refine ⟨state, source, raw, by rw [cursor, start, Nat.zero_add],
    follows.bytes.trans fresh.sameBytes, fun baseline headers position => ?_⟩
  exact ⟨rfl, fresh.sameMax, fresh.sameFlexible, rfl, rfl, moved, inside,
    fresh.reliable.follows follows⟩

/-- A source without a record has no header row. -/
theorem Fresh.passes_empty (fresh : Fresh reader contract dialect bytes)
    (flagged : dialect.hasHeaders = true) (found : contract.scan bytes = none) :
    HeaderPasses reader contract dialect bytes := by
  have headed : reader.hasHeaders = true := fresh.sameHeaderFlag.trans flagged
  obtain ⟨state, source, raw, _, sameBytes, settles⟩ := fresh.header_read
  have kind : headerRow contract dialect bytes = .absent := by
    simp [headerRow, flagged, found]
  have emptied : remainder contract bytes = [] := by
    simp [remainder, CsvCore.Contract.reach, found]
  simp only [expectedRaw, found] at raw
  refine ⟨{ reader with seeked := true, state, source }, [], by simp [kind], ?_, ?_,
    sameBytes, fun _ => rfl, fun _ => ⟨?_, .inr contract.scan_nil⟩⟩
  · rw [Reader.readHeaders, if_pos headed, raw]
  · have result := settles none none reader.position
    rw [emptied] at result
    simpa [kind, HeaderRow.baseline, HeaderRow.headers, fresh.sameBaseline,
      fresh.sameHeaders] using result
  · simp [kind, HeaderRow.dataStart, contract.records_of_none found,
      contract.records_of_none contract.scan_nil]

/-- A header row that is too long or does not decode is refused. -/
theorem Fresh.fails_row {span : Nat} (fresh : Fresh reader contract dialect bytes)
    (kind : headerRow contract dialect bytes = .malformed span) :
    HeaderFails reader contract dialect bytes := by
  have flagged : dialect.hasHeaders = true := by
    by_contra absent
    simp [headerRow, absent] at kind
  have headed : reader.hasHeaders = true := fresh.sameHeaderFlag.trans flagged
  obtain ⟨state, source, raw, cursor, sameBytes, settles⟩ := fresh.header_read
  cases found : contract.scan bytes with
  | none => simp [headerRow, flagged, found] at kind
  | some parsed =>
    have reached : contract.reach bytes = parsed.span := by
      simp [CsvCore.Contract.reach, found]
    have behind : Settled { reader with seeked := true, state, source } contract dialect
        (bytes.drop parsed.span) none none := by
      have result := settles none none reader.position
      rw [remainder, reached] at result
      simpa [fresh.sameBaseline, fresh.sameHeaders] using result
    have positive := (contract.scan_span found).1
    by_cases beyond : dialect.maxRecordBytes < parsed.span
    · simp only [expectedRaw, found, if_pos beyond] at raw
      refine ⟨parsed.span, { reader with seeked := true, state, source },
        by simp [headerRow, flagged, found, beyond], positive, ?_, behind, rfl,
        cursor.trans reached, sameBytes⟩
      rw [Reader.readHeaders, if_pos headed, raw]
    · simp only [expectedRaw, found, if_neg beyond] at raw
      cases decoded : decodeFields parsed.output parsed.ends with
      | error error =>
        have known := decodeFields_error decoded
        subst known
        refine ⟨parsed.span, { reader with seeked := true, state, source },
          by simp [headerRow, flagged, found, beyond, decoded], positive, ?_, behind, rfl,
          cursor.trans reached, sameBytes⟩
        rw [Reader.readHeaders, if_pos headed, raw]
        simp only [decoded]
      | ok fields => simp [headerRow, flagged, found, beyond, decoded] at kind

/-- The names of a header row, and the count they fix, are kept. -/
theorem Fresh.passes_names {span : Nat} {fields : List String}
    (fresh : Fresh reader contract dialect bytes)
    (kind : headerRow contract dialect bytes = .names span fields) :
    HeaderPasses reader contract dialect bytes := by
  have flagged : dialect.hasHeaders = true := by
    by_contra absent
    simp [headerRow, absent] at kind
  have headed : reader.hasHeaders = true := fresh.sameHeaderFlag.trans flagged
  obtain ⟨state, source, raw, cursor, sameBytes, settles⟩ := fresh.header_read
  obtain ⟨parsed, found, within, decoded, rfl⟩ := headerRow_names kind
  have reached : contract.reach bytes = parsed.span := by
    simp [CsvCore.Contract.reach, found]
  simp only [expectedRaw, found, if_neg within] at raw
  refine ⟨{ reader with
      seeked := true, state, source,
      firstFieldCount := if dialect.flexible then none else some fields.length,
      headers := some fields,
      position :=
        if reader.position.byte = 0 then
          { reader.position with byte := parsed.span, line := core.line state }
        else reader.position },
    bytes.drop parsed.span, by simp [kind], ?_, ?_, sameBytes, ?_, ?_⟩
  · rw [Reader.readHeaders, if_pos headed, raw]
    simp only [decoded, fresh.sameFlexible, fresh.sameBaseline]
  · rw [kind, ← reached]
    exact settles _ _ _
  · intro restored
    simp [Nat.ne_of_gt restored]
  · intro zero
    refine ⟨by simp [kind, HeaderRow.dataStart], .inl ?_⟩
    simp [zero, cursor, reached]

/-- The header step of a fresh reader, by what its first row is. -/
theorem Fresh.readHeaders_cases (fresh : Fresh reader contract dialect bytes) :
    HeaderFails reader contract dialect bytes ∨ HeaderPasses reader contract dialect bytes := by
  cases flagged : dialect.hasHeaders with
  | false => exact .inr (fresh.passes_unheaded flagged)
  | true =>
    cases kind : headerRow contract dialect bytes with
    | absent => exact .inr (fresh.passes_empty flagged (scan_of_absent flagged kind))
    | malformed span => exact .inl (fresh.fails_row kind)
    | names span fields => exact .inr (fresh.passes_names kind)

/-- The first read of a fresh reader, up to its row. -/
theorem Fresh.ensure_cases (fresh : Fresh reader contract dialect bytes) :
    (∃ span next, headerRow contract dialect bytes = .malformed span ∧ 0 < span ∧
      reader.ensureHeadersAndSeek = (.error malformed, next) ∧
      Settled next contract dialect (bytes.drop span) none none ∧
      next.position = reader.position ∧ next.source.cursor = span ∧ next.source.bytes = bytes) ∨
    (∃ next, (∀ span, headerRow contract dialect bytes ≠ .malformed span) ∧
      reader.ensureHeadersAndSeek = (.ok (), next) ∧
      Delivers next contract dialect bytes
        (contract.records
          (bytes.drop ((headerRow contract dialect bytes).dataStart reader.position.byte)))
        ((headerRow contract dialect bytes).baseline dialect.flexible)
        (headerRow contract dialect bytes).headers) := by
  have unread := fresh.seeked
  rcases fresh.readHeaders_cases with
    ⟨span, next, kind, positive, header, rest⟩ |
    ⟨next, text, kind, header, settled, sameBytes, restored, initial⟩
  · refine .inl ⟨span, next, kind, positive, ?_, rest⟩
    simp only [Reader.ensureHeadersAndSeek, unread, Bool.false_eq_true, if_false, header]
  · have ensured : reader.ensureHeadersAndSeek = next.seekTarget reader.position := by
      simp only [Reader.ensureHeadersAndSeek, unread, Bool.false_eq_true, if_false, header]
    right
    rcases Nat.eq_zero_or_pos reader.position.byte with zero | positive
    · obtain ⟨same, aligned⟩ := initial zero
      refine ⟨next, kind, ?_, text, settled, by rw [same, zero], sameBytes, aligned⟩
      rw [ensured]
      simp [Reader.seekTarget, zero]
    · obtain ⟨sought, call, moved, position, cursor, bytesKept⟩ :=
        seekTarget_settled settled positive
      have resumed : (headerRow contract dialect bytes).dataStart reader.position.byte =
          reader.position.byte := by
        cases headerRow contract dialect bytes <;> simp [HeaderRow.dataStart, Nat.ne_of_gt positive]
      refine ⟨sought, kind, ensured.trans call, _, moved, ?_, bytesKept.trans sameBytes, .inl ?_⟩
      · rw [sameBytes, resumed]
      · rw [position, restored positive, cursor]

end First

section Run

variable {contract : core.Contract} {dialect : Dialect} {bytes : List UInt8}
  {records : List Parsed} {baseline : Option Nat} {headers : Option (List String)}
  {reader next : Reader core}

theorem Delivers.seeked (delivers : Delivers reader contract dialect bytes records baseline headers) :
    reader.seeked = true := by
  obtain ⟨_, settled, _⟩ := delivers
  exact settled.seeked

theorem Delivers.outcomeAt
    (delivers : Delivers reader contract dialect bytes records baseline headers) (index : Nat) :
    reader.outcomeAt index = rowAt (rows dialect headers baseline records) index := by
  obtain ⟨text, settled, same, _⟩ := delivers
  rw [settled.outcomeAt index, same]

/-- A reader that passes its header and seek reads as the settled reader does. -/
theorem read_of_ensure (ensured : reader.ensureHeadersAndSeek = (.ok (), next))
    (settled : next.seeked = true) : reader.read = next.read := by
  rw [Reader.read, ensured, Reader.read, ensureHeadersAndSeek_settled settled]

private theorem after_of_read (same : reader.read = next.read) (count : Nat) :
    reader.after (count + 1) = next.after (count + 1) := by
  rw [Reader.after_succ, Reader.after_succ, same]

theorem outcomeAt_of_read (same : reader.read = next.read) (index : Nat) :
    reader.outcomeAt index = next.outcomeAt index := by
  cases index with
  | zero => exact congrArg Prod.fst same
  | succ index => rw [Reader.outcomeAt, Reader.outcomeAt, after_of_read same]

/-- Delivering a record leaves the stored byte on the next record boundary. -/
theorem Delivers.read_row
    (delivers : Delivers reader contract dialect bytes (parsed :: records) baseline headers) :
    Delivers reader.read.2 contract dialect bytes records
        (nextBaseline dialect baseline parsed) headers ∧
      reader.read.2.position.byte = reader.read.2.source.cursor ∧
      0 < reader.read.2.position.byte := by
  obtain ⟨text, settled, same, sameBytes, aligned⟩ := delivers
  cases found : contract.scan text with
  | none =>
    rw [contract.records_of_none found] at same
    exact False.elim (List.cons_ne_nil _ _ same.symm)
  | some first =>
    rw [contract.records_of_some found] at same
    obtain ⟨sameFirst, sameRest⟩ := List.cons.inj same
    subst sameFirst
    obtain ⟨_, moved, position, cursor, kept⟩ := settled.read_record found
    have positive := (contract.scan_span found).1
    have before : reader.position.byte = reader.source.cursor := by
      rcases aligned with equal | nothing
      · exact equal
      · rw [found] at nothing
        cases nothing
    have after : reader.read.2.position.byte = reader.read.2.source.cursor := by
      rw [position, cursor, before]
    refine ⟨⟨_, moved, sameRest, kept.trans sameBytes, .inl after⟩, after, ?_⟩
    rw [position]
    omega

theorem Delivers.read_end
    (delivers : Delivers reader contract dialect bytes [] baseline headers) :
    reader.read.1 = .ok .endOfInput ∧
      ∃ text, Settled reader.read.2 contract dialect text baseline headers ∧
        contract.scan text = none := by
  obtain ⟨text, settled, same, _⟩ := delivers
  cases found : contract.scan text with
  | none => exact ⟨(settled.read_end found).1, [], (settled.read_end found).2, contract.scan_nil⟩
  | some first =>
    rw [contract.records_of_some found] at same
    exact False.elim (List.cons_ne_nil _ _ same)

/-- After every advancing outcome the stored byte is the physical offset. -/
theorem Delivers.aligned
    (delivers : Delivers reader contract dialect bytes records baseline headers) (count : Nat)
    (advanced : advances (reader.outcomeAt count) = true) :
    (reader.after (count + 1)).position.byte = (reader.after (count + 1)).source.cursor := by
  induction count generalizing reader records baseline with
  | zero =>
    cases records with
    | nil =>
      rw [delivers.outcomeAt] at advanced
      exact Bool.noConfusion advanced
    | cons parsed records => exact delivers.read_row.2.1
  | succ count ih =>
    rw [Reader.outcomeAt_succ] at advanced
    rw [Reader.after_succ]
    cases records with
    | nil =>
      obtain ⟨_, text, settled, nothing⟩ := delivers.read_end
      rw [settled.outcomeAt, contract.records_of_none nothing] at advanced
      exact Bool.noConfusion advanced
    | cons parsed records => exact ih delivers.read_row.1 advanced

/-- The reader after `count` delivered records. -/
theorem Delivers.after
    (delivers : Delivers reader contract dialect bytes records baseline headers)
    (within : count ≤ records.length) :
    ∃ adopted, Delivers (reader.after count) contract dialect bytes (records.drop count) adopted
        headers ∧
      (0 < count → (reader.after count).position.byte = (reader.after count).source.cursor ∧
        0 < (reader.after count).position.byte) := by
  induction count generalizing reader records baseline with
  | zero => exact ⟨baseline, delivers, fun absurd => False.elim (Nat.lt_irrefl 0 absurd)⟩
  | succ count ih =>
    cases records with
    | nil => simp at within
    | cons parsed records =>
      obtain ⟨moved, aligned, positive⟩ := delivers.read_row
      rw [Reader.after_succ, List.drop_succ_cons]
      cases count with
      | zero => exact ⟨_, moved, fun _ => ⟨aligned, positive⟩⟩
      | succ count =>
        obtain ⟨adopted, later, settled⟩ := ih moved (by simpa using within)
        exact ⟨adopted, later, fun _ => settled (Nat.succ_pos count)⟩

/-- The stored position after `count` delivered records names the records that
remain. -/
theorem Delivers.stored
    (delivers : Delivers reader contract dialect bytes records baseline headers)
    (within : count ≤ records.length) (positive : 0 < count) :
    0 < (reader.after count).position.byte ∧
      contract.records (bytes.drop (reader.after count).position.byte) = records.drop count := by
  obtain ⟨adopted, ⟨text, settled, same, sameBytes, _⟩, stored⟩ := delivers.after within
  obtain ⟨aligned, moved⟩ := stored positive
  refine ⟨moved, ?_⟩
  rw [← same, ← settled.rest, Source.rest, sameBytes, aligned]

end Run

/-- The stored byte is the physical offset of the next record after every
advancing outcome, if and only if a malformed header row is not met, or ends
exactly where the reader was opened. -/
theorem position_tracks_source_iff (contract : core.Contract) (dialect : Dialect)
    (source : Source) (inherited : Option StoredPosition) (atStart : source.cursor = 0)
    (reliable : Reliable source) :
    let reader := (Reader.new core source dialect).openStream inherited
    (∀ count, advances (reader.outcomeAt count) = true →
      (reader.after (count + 1)).position.byte = (reader.after (count + 1)).source.cursor) ↔
    (∀ span, headerRow contract dialect source.bytes = .malformed span →
      (inherited.getD .start).byte = span) := by
  intro reader
  have fresh : Fresh reader contract dialect source.bytes :=
    Reader.new_fresh contract dialect source inherited atStart reliable
  have opened : reader.position = inherited.getD .start := rfl
  rcases fresh.ensure_cases with
    ⟨span, next, kind, positive, ensured, settled, position, cursor, sameBytes⟩ |
    ⟨next, kind, ensured, delivers⟩
  · have failed : reader.read = (.error malformed, next) := by rw [Reader.read, ensured]
    constructor
    · intro tracks other known
      have same : span = other := HeaderRow.malformed.inj (kind.symm.trans known)
      have first := tracks 0 (by rw [Reader.outcomeAt, Reader.after, failed]; rfl)
      rw [Reader.after_succ, Reader.after, failed] at first
      rw [← opened, ← position, first, cursor, same]
    · intro safe count advanced
      have aligned : next.position.byte = next.source.cursor := by
        rw [position, cursor, opened, safe span kind]
      rw [Reader.after_succ, failed]
      cases count with
      | zero => exact aligned
      | succ count =>
        rw [Reader.outcomeAt_succ, failed] at advanced
        have delivers : Delivers next contract dialect source.bytes
            (contract.records (source.bytes.drop span)) none none :=
          ⟨_, settled, rfl, sameBytes, .inl aligned⟩
        exact delivers.aligned count advanced
  · have same := read_of_ensure ensured delivers.seeked
    refine ⟨fun _ span known => False.elim (kind span known), fun _ count advanced => ?_⟩
    rw [outcomeAt_of_read same] at advanced
    rw [after_of_read same]
    exact delivers.aligned count advanced

/-- A source that serves every call with up to a fixed number of bytes. -/
def steadySource (bytes : List UInt8) : Source := ⟨bytes, 0, fun _ => .serve 63, 0⟩

private theorem steadySource_reliable (bytes : List UInt8) : Reliable (steadySource bytes) := by
  intro call cursor served
  cases served

/-- The header row `a,b` is well formed, so the stored byte follows the source. -/
theorem position_tracks_source_well_formed_header :
    let dialect := { Dialect.csv with hasHeaders := true }
    let reader := (Reader.new (csvMachine dialect.toCoreSettings).core
      (steadySource [97, 44, 98, 10, 99, 10]) dialect).openStream none
    ∀ count, advances (reader.outcomeAt count) = true →
      (reader.after (count + 1)).position.byte = (reader.after (count + 1)).source.cursor := by
  refine (position_tracks_source_iff (csvMachine _).contract { Dialect.csv with hasHeaders := true }
    (steadySource [97, 44, 98, 10, 99, 10]) none rfl (steadySource_reliable _)).mpr ?_
  intro span known
  have kind : headerRow (csvMachine Dialect.csv.toCoreSettings).contract
      { Dialect.csv with hasHeaders := true } [97, 44, 98, 10, 99, 10] =
      .names 4 ["a", "b"] := by decide
  cases kind.symm.trans known

/-- With a bound of two bytes the header row `abc` is oversized: the reader has
taken its four bytes and reports an advancing error, but the stored byte is
still zero. -/
theorem oversized_header_leaves_position :
    let dialect := { Dialect.csv with hasHeaders := true, maxRecordBytes := 2 }
    let reader := (Reader.new (csvMachine dialect.toCoreSettings).core
      (steadySource [97, 98, 99, 10, 100, 10]) dialect).openStream none
    advances (reader.outcomeAt 0) = true ∧ (reader.after 1).position.byte = 0 ∧
      (reader.after 1).source.cursor = 4 := by
  decide

section Restart

variable {contract : core.Contract} {dialect : Dialect} {bytes : List UInt8}
  {reader : Reader core}

/-- Every outcome of a fresh reader opened at byte `target`, up to the end of
input. -/
def freshRows (contract : core.Contract) (dialect : Dialect) (bytes : List UInt8)
    (target : Nat) : List Outcome :=
  match headerRow contract dialect bytes with
  | .malformed span =>
    .error malformed :: rows dialect none none (contract.records (bytes.drop span))
  | header =>
    rows dialect header.headers (header.baseline dialect.flexible)
      (contract.records (bytes.drop (header.dataStart target)))

theorem Fresh.outcomeAt (fresh : Fresh reader contract dialect bytes) (index : Nat) :
    reader.outcomeAt index =
      rowAt (freshRows contract dialect bytes reader.position.byte) index := by
  rcases fresh.ensure_cases with
    ⟨span, next, kind, _, ensured, settled, _⟩ | ⟨next, kind, ensured, delivers⟩
  · have failed : reader.read = (.error malformed, next) := by rw [Reader.read, ensured]
    rw [freshRows, kind]
    cases index with
    | zero => rw [Reader.outcomeAt, Reader.after, failed]; rfl
    | succ index =>
      rw [Reader.outcomeAt_succ, failed, settled.outcomeAt]
      rfl
  · rw [outcomeAt_of_read (read_of_ensure ensured delivers.seeked), delivers.outcomeAt]
    cases header : headerRow contract dialect bytes with
    | malformed span => exact False.elim (kind span header)
    | absent => simp only [freshRows, header]
    | names span fields => simp only [freshRows, header]

private theorem advances_of_mem_rows (member : outcome ∈ rows dialect headers baseline records) :
    advances outcome = true := by
  obtain ⟨parsed, _, same⟩ := List.mem_map.mp member
  rw [← same]
  exact advances_row ..

private theorem advances_of_mem_freshRows
    (member : outcome ∈ freshRows contract dialect bytes target) :
    advances outcome = true := by
  unfold freshRows at member
  split at member
  · rcases List.mem_cons.mp member with same | later
    · rw [same]; rfl
    · exact advances_of_mem_rows later
  · exact advances_of_mem_rows member

/-- Outcome sequences that end in the end of input agree everywhere exactly when
their advancing parts are the same list. -/
private theorem rowAt_ext {left right : List Outcome}
    (advancingLeft : ∀ outcome ∈ left, advances outcome = true)
    (advancingRight : ∀ outcome ∈ right, advances outcome = true) :
    (∀ index, rowAt left index = rowAt right index) ↔ left = right := by
  refine ⟨fun agree => List.ext_getElem? fun index => ?_, fun same _ => by rw [same]⟩
  have here := agree index
  unfold rowAt at here
  cases first : left[index]? with
  | none =>
    cases second : right[index]? with
    | none => rfl
    | some outcome =>
      have moving := advancingRight outcome (List.mem_of_getElem? second)
      simp only [first, second, Option.getD_none, Option.getD_some] at here
      rw [← here] at moving
      exact Bool.noConfusion moving
  | some outcome =>
    have moving := advancingLeft outcome (List.mem_of_getElem? first)
    cases second : right[index]? with
    | none =>
      simp only [first, second, Option.getD_none, Option.getD_some] at here
      rw [here] at moving
      exact Bool.noConfusion moving
    | some other => simpa [first, second] using here

private theorem rowAt_add (outcomes : List Outcome) (count index : Nat) :
    rowAt outcomes (count + index) = rowAt (outcomes.drop count) index := by
  simp [rowAt, List.getElem?_drop]

/-- A record that is in bound and decodes. -/
def decodes (dialect : Dialect) (parsed : Parsed) : Bool :=
  decide (parsed.span ≤ dialect.maxRecordBytes) &&
    (decodeFields parsed.output parsed.ends).isOk

/-- Two baselines treat a record alike exactly when it does not decode, or both
or neither is its field count. -/
private theorem row_eq_iff (strict : dialect.flexible = false) (headers : Option (List String))
    (first second : Option Nat) (parsed : Parsed) :
    row dialect headers first parsed = row dialect headers second parsed ↔
      (decodes dialect parsed = true →
        (first = some parsed.ends.length ↔ second = some parsed.ends.length)) := by
  by_cases beyond : dialect.maxRecordBytes < parsed.span
  · simp [row, decodes, beyond, Nat.not_le.mpr beyond]
  · cases decoded : decodeFields parsed.output parsed.ends with
    | error error =>
      have known := decodeFields_error decoded
      simp [row, decodes, beyond, strict, decodeRow, decoded, known, Except.isOk, Except.toBool]
    | ok fields =>
      by_cases sameFirst : first = some parsed.ends.length <;>
        by_cases sameSecond : second = some parsed.ends.length <;>
        simp [row, decodes, beyond, strict, decodeRow, decoded, Except.isOk, Except.toBool,
          sameFirst, sameSecond, Nat.le_of_not_lt beyond]

private theorem row_flexible (loose : dialect.flexible = true) (headers : Option (List String))
    (first second : Option Nat) (parsed : Parsed) :
    row dialect headers first parsed = row dialect headers second parsed := by
  simp [row, loose]

/-- When a restart after `count` outcomes is harmless: nothing was read, or a
well-formed header row fixes the baseline again, or no later record that decodes
can tell the first baseline of the source from the first one of its remainder. -/
def RestartSafe (contract : core.Contract) (dialect : Dialect) (bytes : List UInt8)
    (count : Nat) : Prop :=
  count = 0 ∨
  (dialect.hasHeaders = true ∧ ∀ span, headerRow contract dialect bytes ≠ .malformed span) ∨
  (dialect.hasHeaders = false ∧ (dialect.flexible = true ∨
    ∀ parsed ∈ (contract.records bytes).drop count, decodes dialect parsed = true →
      (firstCount dialect.maxRecordBytes ((contract.records bytes).drop count) =
          some parsed.ends.length ↔
        firstCount dialect.maxRecordBytes (contract.records bytes) = some parsed.ends.length)))

/-- Dropping delivered rows and rereading the remaining records agree, given a
baseline that both readers hold. -/
private theorem rows_drop_of_baseline (records : List Parsed) (headers : Option (List String))
    (count : Nat) (fixed : dialect.flexible = true ∨ ∃ width, baseline = some width) :
    rows dialect headers baseline (records.drop count) =
      (rows dialect headers baseline records).drop count := by
  rw [rows, rows, ← List.map_drop]
  refine List.map_congr_left fun parsed _ => ?_
  rcases fixed with loose | ⟨width, same⟩
  · exact row_flexible loose ..
  · rw [same]; rfl

/-- Where an uninterrupted reader stands after `count` delivered records. -/
theorem Fresh.stored (fresh : Fresh reader contract dialect bytes)
    (initial : reader.position.byte = 0)
    (wellFormed : ∀ span, headerRow contract dialect bytes ≠ .malformed span)
    (within : count ≤ (contract.records
      (bytes.drop ((headerRow contract dialect bytes).dataStart 0))).length)
    (positive : 0 < count) :
    0 < (reader.after count).position.byte ∧
      contract.records (bytes.drop (reader.after count).position.byte) =
        (contract.records
          (bytes.drop ((headerRow contract dialect bytes).dataStart 0))).drop count := by
  rcases fresh.ensure_cases with ⟨span, _, kind, _⟩ | ⟨next, _, ensured, delivers⟩
  · exact False.elim (wellFormed span kind)
  · rw [initial] at delivers
    obtain ⟨earlier, size⟩ : ∃ earlier, count = earlier + 1 := ⟨count - 1, by omega⟩
    rw [size, after_of_read (read_of_ensure ensured delivers.seeked), ← size]
    exact delivers.stored within positive

/-- The rows of a reader restored after `count` outcomes are the remaining rows
of the uninterrupted one exactly when the restart is safe. -/
private theorem freshRows_restored (fresh : Fresh reader contract dialect bytes)
    (initial : reader.position.byte = 0)
    (produced : count ≤ (freshRows contract dialect bytes 0).length) :
    freshRows contract dialect bytes (reader.after count).position.byte =
        (freshRows contract dialect bytes 0).drop count ↔
      RestartSafe contract dialect bytes count := by
  rcases Nat.eq_zero_or_pos count with zero | positive
  · subst zero
    simp [RestartSafe, Reader.after, initial]
  cases header : headerRow contract dialect bytes with
  | malformed span =>
    -- both readers repeat the header error, so the restored one has more rows
    have headed : dialect.hasHeaders = true := by
      cases flagged : dialect.hasHeaders with
      | true => rfl
      | false => simp [headerRow, flagged] at header
    have independent : ∀ target, freshRows contract dialect bytes target =
        freshRows contract dialect bytes 0 := by
      intro target
      simp only [freshRows, header]
    rw [independent]
    constructor
    · intro same
      have lengths := congrArg List.length same
      rw [List.length_drop] at lengths
      omega
    · rintro (zero | ⟨_, wellFormed⟩ | ⟨headerless, _⟩)
      · omega
      · exact False.elim (wellFormed span header)
      · exact False.elim (by rw [headed] at headerless; cases headerless)
  | names span fields =>
    have headed : dialect.hasHeaders = true := by
      cases flagged : dialect.hasHeaders with
      | true => rfl
      | false => simp [headerRow, flagged] at header
    have safe : RestartSafe contract dialect bytes count :=
      .inr (.inl ⟨headed, by simp [header]⟩)
    simp only [freshRows, header, rows, List.length_map] at produced
    obtain ⟨moved, remaining⟩ :=
      fresh.stored initial (by simp [header]) (by simpa [header] using produced) positive
    refine ⟨fun _ => safe, fun _ => ?_⟩
    simp only [freshRows, header]
    rw [HeaderRow.dataStart, if_neg (Nat.ne_of_gt moved), remaining, header]
    refine rows_drop_of_baseline _ _ _ ?_
    cases loose : dialect.flexible with
    | true => exact .inl rfl
    | false => exact .inr ⟨fields.length, by simp [HeaderRow.baseline]⟩
  | absent =>
    have whole : (HeaderRow.absent).dataStart 0 = 0 := rfl
    simp only [freshRows, header, rows, List.length_map] at produced
    obtain ⟨_, remaining⟩ :=
      fresh.stored initial (by simp [header]) (by simpa [header] using produced) positive
    rw [header, whole, List.drop_zero] at remaining
    rw [whole, List.drop_zero] at produced
    have restored : freshRows contract dialect bytes (reader.after count).position.byte =
        rows dialect none none ((contract.records bytes).drop count) := by
      simp only [freshRows, header, HeaderRow.dataStart, HeaderRow.headers, HeaderRow.baseline,
        remaining]
    have original : freshRows contract dialect bytes 0 =
        rows dialect none none (contract.records bytes) := by
      simp [freshRows, header, HeaderRow.dataStart, HeaderRow.headers, HeaderRow.baseline]
    rw [restored, original]
    cases flagged : dialect.hasHeaders with
    | true =>
      -- a header dialect without a header row has no record at all
      have nothing : contract.scan bytes = none := by
        cases found : contract.scan bytes with
        | none => rfl
        | some parsed =>
          simp only [headerRow, flagged, if_true, found] at header
          split at header
          · cases header
          · split at header <;> cases header
      rw [contract.records_of_none nothing] at produced
      simp only [List.length_nil] at produced
      omega
    | false =>
      cases loose : dialect.flexible with
      | true =>
        refine ⟨fun _ => .inr (.inr ⟨flagged, .inl loose⟩), fun _ => ?_⟩
        exact rows_drop_of_baseline _ _ _ (.inl loose)
      | false =>
        have pointwise : rows dialect none none ((contract.records bytes).drop count) =
              (rows dialect none none (contract.records bytes)).drop count ↔
            ∀ parsed ∈ (contract.records bytes).drop count, decodes dialect parsed = true →
              (firstCount dialect.maxRecordBytes ((contract.records bytes).drop count) =
                  some parsed.ends.length ↔
                firstCount dialect.maxRecordBytes (contract.records bytes) =
                  some parsed.ends.length) := by
          rw [rows, rows, ← List.map_drop, List.map_inj_left]
          exact forall₂_congr fun parsed _ => row_eq_iff loose ..
        rw [pointwise, RestartSafe]
        constructor
        · exact fun same => .inr (.inr ⟨flagged, .inr same⟩)
        · rintro (zero | ⟨headed, _⟩ | ⟨_, flexible | same⟩)
          · omega
          · rw [flagged] at headed; cases headed
          · rw [loose] at flexible; cases flexible
          · exact same

/-- A reader restored from the position stored after `count` advancing outcomes
reproduces the later outcomes of the uninterrupted reader if and only if the
restart is safe. -/
theorem restart_reproduces_outcomes_iff (contract : core.Contract) (dialect : Dialect)
    (source resumed : Source) (count : Nat) (sameBytes : resumed.bytes = source.bytes)
    (atStart : source.cursor = 0) (resumedAtStart : resumed.cursor = 0)
    (reliable : Reliable source) (resumedReliable : Reliable resumed)
    (produced : ∀ index < count, advances
      (((Reader.new core source dialect).openStream none).outcomeAt index) = true) :
    let reader := (Reader.new core source dialect).openStream none
    let restored := (Reader.new core resumed dialect).openStream
      (some (reader.after count).update)
    (∀ index, restored.outcomeAt index = reader.outcomeAt (count + index)) ↔
      RestartSafe contract dialect source.bytes count := by
  intro reader restored
  have fresh : Fresh reader contract dialect source.bytes :=
    Reader.new_fresh contract dialect source none atStart reliable
  have again : Fresh restored contract dialect source.bytes :=
    sameBytes ▸ Reader.new_fresh contract dialect resumed _ resumedAtStart resumedReliable
  have initial : reader.position.byte = 0 := rfl
  have reopened : restored.position.byte = (reader.after count).position.byte := rfl
  have enough : count ≤ (freshRows contract dialect source.bytes 0).length := by
    rcases Nat.lt_or_ge (freshRows contract dialect source.bytes 0).length count with short | long
    · have last := produced _ short
      rw [fresh.outcomeAt, initial] at last
      simp [rowAt, advances] at last
    · exact long
  rw [← freshRows_restored fresh initial enough, ← rowAt_ext
    (fun _ => advances_of_mem_freshRows)
    (fun _ member => advances_of_mem_freshRows (List.mem_of_mem_drop member))]
  refine forall_congr' fun index => ?_
  rw [again.outcomeAt, fresh.outcomeAt, reopened, initial, rowAt_add]

/-- Header `a,b`, row `1,2`, ragged row `3`: the restart behind the first row
still rejects the second. -/
theorem restart_reproduces_outcomes_headed :
    let dialect := { Dialect.csv with hasHeaders := true }
    let core := (csvMachine dialect.toCoreSettings).core
    let source := steadySource [97, 44, 98, 10, 49, 44, 50, 10, 51, 10]
    let reader := (Reader.new core source dialect).openStream none
    let restored := (Reader.new core source dialect).openStream
      (some (reader.after 1).update)
    ∀ index, restored.outcomeAt index = reader.outcomeAt (1 + index) := by
  refine (restart_reproduces_outcomes_iff (csvMachine _).contract
    { Dialect.csv with hasHeaders := true }
    (steadySource [97, 44, 98, 10, 49, 44, 50, 10, 51, 10])
    (steadySource [97, 44, 98, 10, 49, 44, 50, 10, 51, 10]) 1 rfl rfl rfl
    (steadySource_reliable _) (steadySource_reliable _) (by decide)).mpr ?_
  refine .inr (.inl ⟨rfl, fun span known => ?_⟩)
  have kind : headerRow (csvMachine Dialect.csv.toCoreSettings).contract
      { Dialect.csv with hasHeaders := true } [97, 44, 98, 10, 49, 44, 50, 10, 51, 10] =
      .names 4 ["a", "b"] := by decide
  cases kind.symm.trans known

/-- Rows `a,b` and `c` under the default dialect: the uninterrupted reader
rejects the second row, a reader restored behind the first one delivers it. -/
theorem restart_forgets_baseline :
    let core := (csvMachine Dialect.csv.toCoreSettings).core
    let source := steadySource [97, 44, 98, 10, 99, 10]
    let reader := (Reader.new core source Dialect.csv).openStream none
    let restored := (Reader.new core source Dialect.csv).openStream
      (some (reader.after 1).update)
    advances (reader.outcomeAt 0) = true ∧ reader.outcomeAt 1 = .error malformed ∧
      restored.outcomeAt 0 = .ok (.item ⟨["c"], none⟩) := by
  decide

end Restart

end OxideBatch.Item.Delimited
