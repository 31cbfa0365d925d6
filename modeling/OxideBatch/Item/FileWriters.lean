import OxideBatch.Item.FixedWidth
import OxideBatch.Item.OutputFile

/-! The restartable file writers and their streams. `serde_json` and `csv` are the
parameters `encode` and `csv`: what they emit for a value or for the records of a batch. -/

namespace OxideBatch.Item

open OxideBatch.Core Triple

/-- A writer with its stream; `Position` is the state its `update` returns. -/
structure FileWriter (Item Position : Type) where
  write : List Item → Bool → WriterM WriteOutcome
  openStream : Option Position → OpenM StreamOpenOutcome
  update : WriterState → Position
  close : StreamRuntimeOutcome → CloseM Unit

/-- The streams whose state is the committed length differ in nothing. -/
def lengthStream {Item : Type} (write : List Item → Bool → WriterM WriteOutcome) :
    FileWriter Item Nat where
  write
  openStream := openLength
  update := WriterState.committedBytes
  close _ := pure ()

section JsonLines

inductive JsonLinesTerminator where
  | lf
  | crLf
  deriving DecidableEq, Repr

def JsonLinesTerminator.bytes : JsonLinesTerminator → List UInt8
  | .lf => [10]
  | .crLf => [13, 10]

/-- `JsonLinesWriter::write`. -/
def JsonLinesWriter.write {Value : Type} (encode : Value → List UInt8)
    (terminator : JsonLinesTerminator) (items : List Value) (stopRequested : Bool) :
    WriterM WriteOutcome :=
  if stopRequested then pure .stopped
  else do
    items.foldlM (fun _ item => do
      call .new (OutputFile.writeAll (encode item))
      call .new (OutputFile.writeAll terminator.bytes)) ()
    commitPosition 0

def jsonLinesWriter {Value : Type} (encode : Value → List UInt8)
    (terminator : JsonLinesTerminator) : FileWriter Value Nat :=
  lengthStream (JsonLinesWriter.write encode terminator)

end JsonLines

section Buffered

/-- A batch that was encoded as a whole before the file is touched. -/
def writeBuffer (buffer : Option (List UInt8)) (stopRequested : Bool) : WriterM WriteOutcome :=
  if stopRequested then pure .stopped
  else
    match buffer with
    | none => throw .new
    | some buffer => do
      call .new (OutputFile.writeAll buffer)
      commitPosition 0

/-- `DelimitedWriter::write`. -/
def DelimitedWriter.write (csv : List (List String) → Option (List UInt8))
    (items : List Delimited.DelimitedRecord) (stopRequested : Bool) : WriterM WriteOutcome :=
  writeBuffer (csv (items.map (·.fields))) stopRequested

def delimitedWriter (csv : List (List String) → Option (List UInt8)) :
    FileWriter Delimited.DelimitedRecord Nat :=
  lengthStream (DelimitedWriter.write csv)

def FixedWidth.Terminator.bytes : FixedWidth.Terminator → List UInt8
  | .lf => [10]
  | .crLf => [13, 10]

/-- Fields of exactly the declared widths, one after the other. -/
def encodeFields : List String → List FixedWidth.Field → Option (List UInt8)
  | [], [] => some []
  | field :: fields, declared :: layout =>
    if field.utf8ByteSize ≠ declared.width then none
    else (encodeFields fields layout).map (field.toUTF8.toList ++ ·)
  | _, _ => none

/-- The records of a batch with their terminators. -/
def encodeRecords (layout : FixedWidth.Layout) :
    List FixedWidth.FixedWidthRecord → Option (List UInt8)
  | [] => some []
  | record :: records => do
    let fields ← encodeFields record.fields layout.fields
    let rest ← encodeRecords layout records
    pure (fields ++ layout.terminator.bytes ++ rest)

/-- `FixedWidthWriter::write`. -/
def FixedWidthWriter.write (layout : FixedWidth.Layout) (items : List FixedWidth.FixedWidthRecord)
    (stopRequested : Bool) : WriterM WriteOutcome :=
  writeBuffer (encodeRecords layout items) stopRequested

def fixedWidthWriter (layout : FixedWidth.Layout) : FileWriter FixedWidth.FixedWidthRecord Nat :=
  lengthStream (FixedWidthWriter.write layout)

end Buffered

section JsonArray

/-- Committed bytes and elements of an array. -/
structure WriterPosition where
  committedBytes : Nat
  committedItems : Nat
  deriving DecidableEq, Repr

def leftBracket : List UInt8 := [91]

def comma : List UInt8 := [44]

def rightBracket : List UInt8 := [93]

/-- A fresh output: just the opening bracket. -/
def WriterPosition.start : WriterPosition := ⟨1, 0⟩

def writeSeparator (hasItems : Bool) : WriterM Unit :=
  if hasItems then call .new (OutputFile.writeAll comma) else pure ()

/-- One element, after a comma unless it is the first. -/
def writeElement {Value : Type} (encode : Value → List UInt8) (hasItems : Bool) (item : Value) :
    WriterM Bool := do
  writeSeparator hasItems
  call .new (OutputFile.writeAll (encode item))
  pure true

/-- `JsonArrayWriter::write`. -/
def JsonArrayWriter.write {Value : Type} (encode : Value → List UInt8) (items : List Value)
    (stopRequested : Bool) : WriterM WriteOutcome :=
  if stopRequested then pure .stopped
  else if items.isEmpty then pure .written
  else do
    let state ← get
    let _ ← items.foldlM (writeElement encode) (decide (0 < state.committedItems))
    commitPosition items.length

/-- A restored file is cut back, a fresh one starts over with the opening bracket. -/
def prepareArray : Option WriterPosition → OpenM Unit
  | some restored => reconcile restored.committedBytes
  | none => do
    call openFailed (OutputFile.setLen 0)
    call openFailed (OutputFile.seek 0)
    call openFailed (OutputFile.writeAll leftBracket)
    call openFailed OutputFile.syncData

/-- `JsonArrayWriterStream::open`. -/
def JsonArrayWriterStream.openStream (inherited : Option WriterPosition) :
    OpenM StreamOpenOutcome := do
  prepareArray inherited
  let target := inherited.getD .start
  call openFailed (OutputFile.seek target.committedBytes)
  modify fun state => { state with
    committedBytes := target.committedBytes
    committedItems := target.committedItems }
  pure (if inherited.isSome then .restored else .initial)

/-- `JsonArrayWriterStream::close`: the closing bracket, once the step has committed. -/
def JsonArrayWriterStream.close (outcome : StreamRuntimeOutcome) : CloseM Unit :=
  if outcome = .committed then do
    let state ← get
    call closeFailed (OutputFile.seek state.committedBytes)
    call closeFailed (OutputFile.writeAll rightBracket)
    call closeFailed OutputFile.syncData
  else pure ()

def jsonArrayWriter {Value : Type} (encode : Value → List UInt8) :
    FileWriter Value WriterPosition where
  write := JsonArrayWriter.write encode
  openStream := JsonArrayWriterStream.openStream
  update state := ⟨state.committedBytes, state.committedItems⟩
  close := JsonArrayWriterStream.close

end JsonArray

end OxideBatch.Item
