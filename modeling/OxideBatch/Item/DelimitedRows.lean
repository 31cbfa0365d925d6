import OxideBatch.Item.DelimitedRaw

/-! Rows of a settled delimited reader: once the header and the seek are done,
the outcomes are a function of the remaining records and of the baseline field
count. -/

namespace OxideBatch.Item.Delimited

open OxideBatch.Core

variable {core : CsvCore}

/-- The field count of the first in-bound record, the baseline a reader without
a header row adopts. -/
def firstCount (maxRecordBytes : Nat) (records : List Parsed) : Option Nat :=
  (records.find? (fun parsed => decide (parsed.span ≤ maxRecordBytes))).map (·.ends.length)

/-- The outcome of one in-bound, well-shaped record. -/
def decodeRow (headers : Option (List String)) (parsed : Parsed) : Outcome :=
  match decodeFields parsed.output parsed.ends with
  | .error error => .error error
  | .ok fields => .ok (.item ⟨fields, headers⟩)

/-- The outcome of one record against a settled baseline. -/
def row (dialect : Dialect) (headers : Option (List String)) (baseline : Option Nat)
    (parsed : Parsed) : Outcome :=
  if dialect.maxRecordBytes < parsed.span then .error malformed
  else if dialect.flexible = false ∧ baseline ≠ some parsed.ends.length then .error malformed
  else decodeRow headers parsed

/-- The outcomes of a settled reader over its remaining records. -/
def rows (dialect : Dialect) (headers : Option (List String)) (baseline : Option Nat)
    (records : List Parsed) : List Outcome :=
  records.map (row dialect headers (baseline.or (firstCount dialect.maxRecordBytes records)))

/-- The outcome of call `index`: the end of input once the rows are exhausted. -/
def rowAt (outcomes : List Outcome) (index : Nat) : Outcome :=
  outcomes[index]?.getD (.ok .endOfInput)

private theorem decodeFieldsFrom_error {output : List UInt8} {start : Nat} {ends : List Nat}
    (failed : decodeFieldsFrom output start ends = .error error) : error = malformed := by
  induction ends generalizing start with
  | nil => simp [decodeFieldsFrom] at failed
  | cons finish ends ih =>
    simp only [decodeFieldsFrom] at failed
    split at failed
    · split at failed
      · split at failed
        · cases failed
        · next inner => cases failed; exact ih inner
      · cases failed; rfl
    · cases failed; rfl

theorem decodeFields_error (failed : decodeFields output ends = .error error) :
    error = malformed :=
  decodeFieldsFrom_error failed

private theorem advances_decodeRow (headers : Option (List String)) (parsed : Parsed) :
    advances (decodeRow headers parsed) = true := by
  unfold decodeRow
  split
  · next error failed => rw [decodeFields_error failed]; rfl
  · rfl

theorem advances_row (dialect : Dialect) (headers : Option (List String)) (baseline : Option Nat)
    (parsed : Parsed) : advances (row dialect headers baseline parsed) = true := by
  unfold row
  split
  · rfl
  · split
    · rfl
    · exact advances_decodeRow headers parsed

/-- A source whose I/O calls all succeed. -/
def Reliable (source : Source) : Prop := ∀ call cursor, source.plan call ≠ .fail cursor

theorem Reliable.not_failed (reliable : Reliable source) : ¬ source.FailedBetween after := by
  rintro ⟨call, cursor, _, _, failed⟩
  exact reliable call cursor failed

theorem Reliable.follows (reliable : Reliable source) (follows : source.Follows after) :
    Reliable after := by
  intro call cursor
  rw [follows.plan]
  exact reliable call cursor

/-- The reader is past its header and seek, at a record boundary of `text`. -/
structure Settled (reader : Reader core) (contract : core.Contract) (dialect : Dialect)
    (text : List UInt8) (baseline : Option Nat) (headers : Option (List String)) : Prop where
  seeked : reader.seeked = true
  sameMax : reader.maxRecordBytes = dialect.maxRecordBytes
  sameFlexible : reader.flexible = dialect.flexible
  sameBaseline : reader.firstFieldCount = baseline
  sameHeaders : reader.headers = headers
  rest : reader.source.rest = text
  inside : contract.Inside reader.state text 0 [] []
  reliable : Reliable reader.source

/-- A raw read from a boundary over a reliable source. -/
theorem rawRecord_eq {contract : core.Contract} {reader : Reader core}
    (bound : reader.maxRecordBytes = maxRecordBytes) (rest : reader.source.rest = text)
    (inside : contract.Inside reader.state text 0 [] []) (reliable : Reliable reader.source) :
    ∃ state source,
      reader.rawRecord =
        (some (expectedRaw contract maxRecordBytes text), { reader with state, source }) ∧
      reader.source.Follows source ∧
      source.cursor = reader.source.cursor + contract.reach text ∧
      source.rest = remainder contract text ∧
      contract.Inside state (remainder contract text) 0 [] [] := by
  subst bound rest
  rcases readRawRecord_answers contract reader.maxRecordBytes inside with
    ⟨_, _, failed⟩ | ⟨reported, follows, cursor, next⟩
  · exact False.elim (reliable.not_failed failed)
  · refine ⟨_, _, by rw [Reader.rawRecord, reported], follows, cursor, ?_, next⟩
    rw [Source.rest, follows.bytes, cursor, ← List.drop_drop]
    rfl

/-- The count check accepts exactly the adopted baseline. -/
theorem checkFieldCount_eq (reader : Reader core) (count : Nat) :
    reader.checkFieldCount count =
      (decide (¬ (reader.flexible = false ∧
          reader.firstFieldCount.or (some count) ≠ some count)),
        { reader with
          firstFieldCount :=
            if reader.flexible = true then reader.firstFieldCount
            else reader.firstFieldCount.or (some count) }) := by
  obtain ⟨source, state, bound, hasHeaders, flexible, baseline, headers, position, seeked⟩ := reader
  cases flexible with
  | true => simp [Reader.checkFieldCount]
  | false =>
    cases baseline with
    | none => simp [Reader.checkFieldCount]
    | some expected =>
      by_cases same : expected = count
      · simp [Reader.checkFieldCount, same]
      · simp [Reader.checkFieldCount, same]

theorem ensureHeadersAndSeek_settled {reader : Reader core} (seeked : reader.seeked = true) :
    reader.ensureHeadersAndSeek = (.ok (), reader) := by
  simp [Reader.ensureHeadersAndSeek, seeked]

/-- The baseline after one record. -/
def nextBaseline (dialect : Dialect) (baseline : Option Nat) (parsed : Parsed) : Option Nat :=
  if dialect.maxRecordBytes < parsed.span ∨ dialect.flexible = true then baseline
  else baseline.or (some parsed.ends.length)

theorem Reader.after_succ (reader : Reader core) (count : Nat) :
    reader.after (count + 1) = reader.read.2.after count := by
  induction count with
  | zero => rfl
  | succ count ih =>
    rw [Reader.after, ih]
    rfl

theorem Reader.outcomeAt_succ (reader : Reader core) (index : Nat) :
    reader.outcomeAt (index + 1) = reader.read.2.outcomeAt index := by
  rw [Reader.outcomeAt, Reader.after_succ]
  rfl

section Read

variable {contract : core.Contract} {dialect : Dialect} {text : List UInt8}
  {baseline : Option Nat} {headers : Option (List String)} {reader : Reader core}

/-- At the end of the records a settled reader reports the end and stays there. -/
theorem Settled.read_end (settled : Settled reader contract dialect text baseline headers)
    (nothing : contract.scan text = none) :
    reader.read.1 = .ok .endOfInput ∧
      Settled reader.read.2 contract dialect [] baseline headers := by
  obtain ⟨state, source, raw, follows, _, rest, inside⟩ :=
    rawRecord_eq settled.sameMax settled.rest settled.inside settled.reliable
  have reached : remainder contract text = [] := by
    simp [remainder, CsvCore.Contract.reach, nothing]
  simp only [expectedRaw, nothing] at raw
  have result : reader.read = (.ok .endOfInput, { reader with state, source }) := by
    simp only [Reader.read, ensureHeadersAndSeek_settled settled.seeked, Reader.readRow, raw]
  rw [result]
  refine ⟨rfl, ?_⟩
  exact ⟨settled.seeked, settled.sameMax, settled.sameFlexible, settled.sameBaseline,
    settled.sameHeaders, rest.trans reached, reached ▸ inside, settled.reliable.follows follows⟩

/-- Reading one record from a settled reader, as an equation. -/
theorem Settled.read_eq (settled : Settled reader contract dialect text baseline headers)
    (found : contract.scan text = some parsed) :
    ∃ state source,
      reader.read =
        (row dialect headers (baseline.or (some parsed.ends.length)) parsed,
          ({ reader with
            state, source, firstFieldCount := nextBaseline dialect baseline parsed }).moved
            parsed.span) ∧
      reader.source.Follows source ∧
      source.cursor = reader.source.cursor + parsed.span ∧
      source.rest = text.drop parsed.span ∧
      contract.Inside state (text.drop parsed.span) 0 [] [] := by
  obtain ⟨state, source, raw, follows, cursor, rest, inside⟩ :=
    rawRecord_eq settled.sameMax settled.rest settled.inside settled.reliable
  have reached : contract.reach text = parsed.span := by
    simp [CsvCore.Contract.reach, found]
  simp only [remainder, reached] at rest inside cursor
  refine ⟨state, source, ?_, follows, cursor, rest, inside⟩
  have entered := ensureHeadersAndSeek_settled settled.seeked
  by_cases beyond : dialect.maxRecordBytes < parsed.span
  · simp only [expectedRaw, found, if_pos beyond] at raw
    have adopted : nextBaseline dialect baseline parsed = reader.firstFieldCount := by
      simp [nextBaseline, beyond, settled.sameBaseline]
    simp only [Reader.read, entered, Reader.readRow, raw, row, if_pos beyond, adopted]
  · simp only [expectedRaw, found, if_neg beyond] at raw
    have adopted : nextBaseline dialect baseline parsed =
        if dialect.flexible = true then baseline
        else baseline.or (some parsed.ends.length) := by
      simp [nextBaseline, beyond]
    simp only [Reader.read, entered, Reader.readRow, raw, checkFieldCount_eq, settled.sameFlexible,
      settled.sameBaseline, adopted]
    by_cases rejected : dialect.flexible = false ∧
        baseline.or (some parsed.ends.length) ≠ some parsed.ends.length
    · rw [decide_eq_false (not_not.mpr rejected)]
      simp only [row, if_neg beyond, if_pos rejected]
    · rw [decide_eq_true rejected]
      simp only [row, if_neg beyond, if_neg rejected, decodeRow, settled.sameHeaders]
      cases decodeFields parsed.output parsed.ends <;> rfl

/-- A settled reader answers a record by its row and moves past it. -/
theorem Settled.read_record (settled : Settled reader contract dialect text baseline headers)
    (found : contract.scan text = some parsed) :
    reader.read.1 = row dialect headers (baseline.or (some parsed.ends.length)) parsed ∧
      Settled reader.read.2 contract dialect (text.drop parsed.span)
        (nextBaseline dialect baseline parsed) headers ∧
      reader.read.2.position.byte = reader.position.byte + parsed.span ∧
      reader.read.2.source.cursor = reader.source.cursor + parsed.span ∧
      reader.read.2.source.bytes = reader.source.bytes := by
  obtain ⟨state, source, result, follows, cursor, rest, inside⟩ := settled.read_eq found
  rw [result]
  refine ⟨rfl, ?_, rfl, cursor, follows.bytes⟩
  exact ⟨settled.seeked, settled.sameMax, settled.sameFlexible, rfl, settled.sameHeaders, rest,
    inside, settled.reliable.follows follows⟩

/-- Adopting the baseline record by record is the same as adopting it once. -/
private theorem rows_cons (dialect : Dialect) (headers : Option (List String))
    (baseline : Option Nat)
    (parsed : Parsed) (records : List Parsed) :
    rows dialect headers baseline (parsed :: records) =
      row dialect headers (baseline.or (some parsed.ends.length)) parsed ::
        rows dialect headers (nextBaseline dialect baseline parsed) records := by
  by_cases beyond : dialect.maxRecordBytes < parsed.span
  · have skipped : firstCount dialect.maxRecordBytes (parsed :: records) =
        firstCount dialect.maxRecordBytes records := by
      simp [firstCount, Nat.not_le.mpr beyond]
    simp [rows, skipped, nextBaseline, beyond, row]
  · have adopted : firstCount dialect.maxRecordBytes (parsed :: records) =
        some parsed.ends.length := by
      simp [firstCount, Nat.le_of_not_lt beyond]
    cases loose : dialect.flexible with
    | true => simp [rows, row, loose]
    | false =>
      have next : nextBaseline dialect baseline parsed = baseline.or (some parsed.ends.length) := by
        simp [nextBaseline, beyond, loose]
      have same : ∀ other, (baseline.or (some parsed.ends.length)).or other =
          baseline.or (some parsed.ends.length) := by
        intro other
        cases baseline <;> rfl
      rw [rows, adopted, rows, next, same, List.map_cons]

/-- Every outcome of a settled reader is a row of the remaining records. -/
theorem Settled.outcomeAt (settled : Settled reader contract dialect text baseline headers)
    (index : Nat) :
    reader.outcomeAt index =
      rowAt (rows dialect headers baseline (contract.records text)) index := by
  induction index generalizing reader text baseline with
  | zero =>
    cases found : contract.scan text with
    | none =>
      rw [contract.records_of_none found]
      exact (settled.read_end found).1
    | some parsed =>
      rw [contract.records_of_some found, rows_cons]
      exact (settled.read_record found).1
  | succ index ih =>
    rw [Reader.outcomeAt_succ]
    cases found : contract.scan text with
    | none =>
      rw [ih (settled.read_end found).2, contract.records_of_none found,
        contract.records_of_none contract.scan_nil]
      simp [rowAt, rows]
    | some parsed =>
      rw [ih (settled.read_record found).2.1, contract.records_of_some found, rows_cons]
      rfl

end Read

end OxideBatch.Item.Delimited
