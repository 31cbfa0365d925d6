import OxideBatch.Core.Component
import OxideBatch.Item.CsvCore
import OxideBatch.Item.Source

/-! The restartable delimited reader: the bounded record loop over `read_record`,
the header row and seek on the first read, and the paired position stream. -/

namespace OxideBatch.Item.Delimited

open OxideBatch.Core

def defaultMaxRecordBytes : Nat := 1024 * 1024

def discardOutputBytes : Nat := 4096

def discardEndsLen : Nat := 1024

def initialGrowthBytes : Nat := 256

/-- The parser settings handed to `csv_core::ReaderBuilder`. -/
structure CoreSettings where
  delimiter : UInt8
  quote : UInt8
  escape : Option UInt8
  doubleQuote : Bool
  deriving DecidableEq, Repr

/-- The reader's part of `DelimitedDialect`; the output terminator is a writer
setting. -/
structure Dialect extends CoreSettings where
  hasHeaders : Bool
  flexible : Bool
  maxRecordBytes : Nat
  deriving DecidableEq, Repr

def Dialect.csv : Dialect :=
  { delimiter := 44, quote := 34, escape := none, doubleQuote := true,
    hasHeaders := false, flexible := false, maxRecordBytes := defaultMaxRecordBytes }

structure DelimitedRecord where
  fields : List String
  headers : Option (List String)
  deriving DecidableEq, Repr

structure StoredPosition where
  byte : Nat
  line : Nat
  record : Nat
  deriving DecidableEq, Repr

def StoredPosition.start : StoredPosition := ⟨0, 1, 0⟩

/-- A raw record; an in-bound one carries the buffers `decode_fields` slices. -/
inductive RawRecord where
  | fields (consumed : Nat) (output : List UInt8) (ends : List Nat)
  | oversized (consumed : Nat)
  | eof
  deriving DecidableEq, Repr

/-- Loop variables of `read_raw_record`. `output` and `ends` are the filled
parts of buffers of length `outputSize` and `endsSize`. -/
structure RawState where
  output : List UInt8
  outputSize : Nat
  ends : List Nat
  endsSize : Nat
  consumed : Nat
  oversized : Bool

namespace RawState

def start : RawState := ⟨[], 0, [], 0, 0, false⟩

/-- Output room and ends room of the next call. -/
def rooms (raw : RawState) : Nat × Nat :=
  if raw.oversized then (discardOutputBytes, discardEndsLen)
  else (raw.outputSize - raw.output.length, raw.endsSize - raw.ends.length)

/-- Accounts for one call; the raw span is checked before any buffer grows. -/
def absorb (raw : RawState) (maxRecordBytes : Nat) (call : RecordCall State) : RawState :=
  let consumed := raw.consumed + call.nin
  if raw.oversized then { raw with consumed }
  else
    { raw with
      output := raw.output ++ call.output, ends := raw.ends ++ call.ends, consumed,
      oversized := decide (maxRecordBytes < consumed) }

/-- The next output buffer length: doubled, and never past the bound. -/
def grown (outputSize maxRecordBytes : Nat) : Nat :=
  min (if outputSize = 0 then initialGrowthBytes else outputSize * 2) maxRecordBytes

def growOutput (raw : RawState) (maxRecordBytes : Nat) : RawState :=
  if raw.oversized then raw
  else if grown raw.outputSize maxRecordBytes ≤ raw.outputSize then { raw with oversized := true }
  else { raw with outputSize := grown raw.outputSize maxRecordBytes }

def growEnds (raw : RawState) : RawState :=
  if raw.oversized then raw else { raw with endsSize := max raw.endsSize 16 * 2 }

def finish (raw : RawState) : RawRecord :=
  if raw.oversized then .oversized raw.consumed
  else .fields raw.consumed raw.output raw.ends

end RawState

section Raw

variable (core : CsvCore) (maxRecordBytes : Nat)

def readRecord (raw : RawState) (state : core.State) (input : List UInt8) :
    RecordCall core.State :=
  core.readRecord state input raw.rooms.1 raw.rooms.2

/-- The loop of `read_raw_record`; `none` is a failed `fill_buf`. -/
def rawLoop : Nat → RawState → core.State → Source → Option RawRecord × core.State × Source
  | 0, _, state, source => (none, state, source)
  | fuel + 1, raw, state, source =>
    match source.fillBuf with
    | (none, source) => (none, state, source)
    | (some input, source) =>
      let call := readRecord core raw state input
      let source := source.consume call.nin
      let raw := raw.absorb maxRecordBytes call
      match call.result with
      | .inputEmpty => rawLoop fuel raw call.state source
      | .outputFull => rawLoop fuel (raw.growOutput maxRecordBytes) call.state source
      | .outputEndsFull => rawLoop fuel raw.growEnds call.state source
      | .record => (some raw.finish, call.state, source)
      | .atEnd => (some .eof, call.state, source)

/-- Between two consumed bytes each buffer grows at most once. -/
def readRawRecord (state : core.State) (source : Source) :
    Option RawRecord × core.State × Source :=
  rawLoop core maxRecordBytes (3 * source.rest.length + 3) .start state source

end Raw

def transient : ReaderError := .withCategory .transientInfrastructure

/-- A malformed record the parser has already moved past. -/
def malformed : ReaderError := ReaderError.new.withCheckpointAdvanced true

/-- `std::str::from_utf8`. -/
def fromUtf8 (bytes : List UInt8) : Option String := String.fromUTF8? ⟨bytes.toArray⟩

/-- The slicing loop of `decode_fields`. -/
def decodeFieldsFrom (output : List UInt8) : Nat → List Nat → Except ReaderError (List String)
  | _, [] => .ok []
  | start, finish :: ends =>
    if start ≤ finish ∧ finish ≤ output.length then
      match fromUtf8 ((output.drop start).take (finish - start)) with
      | some text =>
        match decodeFieldsFrom output finish ends with
        | .ok fields => .ok (text :: fields)
        | .error error => .error error
      | none => .error malformed
    else .error malformed

def decodeFields (output : List UInt8) (ends : List Nat) : Except ReaderError (List String) :=
  decodeFieldsFrom output 0 ends

structure Reader (core : CsvCore) where
  source : Source
  state : core.State
  maxRecordBytes : Nat
  hasHeaders : Bool
  flexible : Bool
  firstFieldCount : Option Nat
  headers : Option (List String)
  position : StoredPosition
  seeked : Bool

abbrev Outcome := Except ReaderError (ReadOutcome DelimitedRecord)

namespace Reader

variable {core : CsvCore}

/-- `delimited_reader`: a fresh parser over a source that stands at byte 0. -/
def new (core : CsvCore) (source : Source) (dialect : Dialect) : Reader core :=
  { source, state := core.start, maxRecordBytes := dialect.maxRecordBytes,
    hasHeaders := dialect.hasHeaders, flexible := dialect.flexible,
    firstFieldCount := none, headers := none, position := .start, seeked := false }

/-- `DelimitedReaderStream::open`. -/
def openStream (reader : Reader core) (inherited : Option StoredPosition) : Reader core :=
  { reader with position := inherited.getD .start }

/-- `DelimitedReaderStream::update`. -/
def update (reader : Reader core) : StoredPosition := reader.position

def rawRecord (reader : Reader core) : Option RawRecord × Reader core :=
  let answer := readRawRecord core reader.maxRecordBytes reader.state reader.source
  (answer.1, { reader with state := answer.2.1, source := answer.2.2 })

/-- The header row; on an initial execution its span joins the position. -/
def readHeaders (reader : Reader core) (target : StoredPosition) :
    Except ReaderError Unit × Reader core :=
  if reader.hasHeaders then
    match reader.rawRecord with
    | (none, reader) => (.error transient, reader)
    | (some (.oversized _), reader) => (.error malformed, reader)
    | (some .eof, reader) => (.ok (), reader)
    | (some (.fields consumed output ends), reader) =>
      match decodeFields output ends with
      | .error error => (.error error, reader)
      | .ok fields =>
        (.ok (),
          { reader with
            firstFieldCount :=
              if reader.flexible then reader.firstFieldCount else some fields.length,
            headers := some fields,
            position :=
              if target.byte = 0 then
                { reader.position with byte := consumed, line := core.line reader.state }
              else reader.position })
  else (.ok (), reader)

/-- Seek to a restored position and rebuild the parser there. -/
def seekTarget (reader : Reader core) (target : StoredPosition) :
    Except ReaderError Unit × Reader core :=
  if 0 < target.byte then
    match reader.source.seek target.byte with
    | (false, source) => (.error ReaderError.new, { reader with source })
    | (true, source) =>
      (.ok (), { reader with source, state := core.setLine (core.reset reader.state) target.line })
  else (.ok (), reader)

def ensureHeadersAndSeek (reader : Reader core) : Except ReaderError Unit × Reader core :=
  if reader.seeked then (.ok (), reader)
  else
    match { reader with seeked := true }.readHeaders reader.position with
    | (.error error, next) => (.error error, next)
    | (.ok (), next) => next.seekTarget reader.position

/-- The position after a record that took `consumed` bytes. -/
def moved (reader : Reader core) (consumed : Nat) : Reader core :=
  { reader with
    position := ⟨reader.position.byte + consumed, core.line reader.state,
      reader.position.record + 1⟩ }

/-- The field-count check; the first counted record becomes the baseline. -/
def checkFieldCount (reader : Reader core) (fieldCount : Nat) : Bool × Reader core :=
  if reader.flexible then (true, reader)
  else
    match reader.firstFieldCount with
    | none => (true, { reader with firstFieldCount := some fieldCount })
    | some expected => (expected == fieldCount, reader)

def readRow (reader : Reader core) : Outcome × Reader core :=
  match reader.rawRecord with
  | (none, reader) => (.error transient, reader)
  | (some .eof, reader) => (.ok .endOfInput, reader)
  | (some (.oversized consumed), reader) => (.error malformed, reader.moved consumed)
  | (some (.fields consumed output ends), reader) =>
    match reader.checkFieldCount ends.length with
    | (false, reader) => (.error malformed, reader.moved consumed)
    | (true, reader) =>
      match decodeFields output ends with
      | .error error => (.error error, reader.moved consumed)
      | .ok fields => (.ok (.item ⟨fields, reader.headers⟩), reader.moved consumed)

def read (reader : Reader core) : Outcome × Reader core :=
  match reader.ensureHeadersAndSeek with
  | (.error error, reader) => (.error error, reader)
  | (.ok (), reader) => reader.readRow

/-- The reader after `count` read calls. -/
def after (reader : Reader core) : Nat → Reader core
  | 0 => reader
  | count + 1 => (reader.after count).read.2

/-- The outcome of read call `index`, counted from zero. -/
def outcomeAt (reader : Reader core) (index : Nat) : Outcome := (reader.after index).read.1

end Reader

/-- An outcome that moves the reader past a record. -/
def advances : Outcome → Bool
  | .ok (.item _) => true
  | .error error => error.hasCheckpointAdvanced
  | .ok _ => false

end OxideBatch.Item.Delimited
