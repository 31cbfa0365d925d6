import OxideBatch.Core.Component
import OxideBatch.Item.Delimited
import OxideBatch.Item.JsonLines

/-! The restartable fixed-width reader: the bounded line loop, the one-shot seek
to a restored position, and the byte-oriented field layout. Its `BoundedLine` and
`copy_bounded` are the JSON Lines module's, word for word. -/

namespace OxideBatch.Item.FixedWidth

open OxideBatch.Core
open OxideBatch.Item.Delimited (fromUtf8 transient malformed)
open OxideBatch.Item.JsonLines (BoundedLine copyBounded lf cr)

inductive Terminator where
  | lf
  | crLf
  deriving DecidableEq, Repr

/-- One byte-width field. -/
structure Field where
  name : Option String
  width : Nat
  deriving DecidableEq, Repr

/-- `FixedWidthLayout`; `new` asserts that there is at least one field and adds the widths up
as a `usize`. -/
structure Layout where
  fields : List Field
  terminator : Terminator
  maxRecordBytes : Nat
  nonempty : fields ≠ []
  summed : (fields.map Field.width).sum < 2 ^ 64

namespace Layout

def recordWidth (layout : Layout) : Nat := (layout.fields.map Field.width).sum

/-- The name lookup every record shares, present once some field is named. -/
def names (layout : Layout) : Option (List (Option String)) :=
  if layout.fields.any (·.name.isSome) then some (layout.fields.map Field.name) else none

end Layout

structure FixedWidthRecord where
  fields : List String
  names : Option (List (Option String))
  deriving DecidableEq, Repr

/-- Loop variables of `read_bounded_line`. -/
structure LineState where
  buf : List UInt8
  consumedTotal : Nat
  tooLong : Bool

namespace LineState

def start : LineState := ⟨[], 0, false⟩

def copy (state : LineState) (maxBytes : Nat) (segment : List UInt8) : LineState :=
  let copied := copyBounded state.buf segment maxBytes state.tooLong
  { state with buf := copied.1, tooLong := copied.2 }

def advance (state : LineState) (amount : Nat) : LineState :=
  { state with consumedTotal := state.consumedTotal + amount }

/-- The end of input closes a line as it stands. -/
def finish (state : LineState) : BoundedLine :=
  if state.tooLong then .tooLong state.consumedTotal
  else .line state.buf state.consumedTotal

/-- A `\n` closes a line and takes one `\r` before it off the copied bytes. -/
def finishTerminated (state : LineState) : BoundedLine :=
  if state.tooLong then .tooLong state.consumedTotal
  else .line (if state.buf.getLast? = some cr then state.buf.dropLast else state.buf)
    state.consumedTotal

end LineState

/-- The `fill_buf` loop; every served chunk but an empty one consumes a byte. -/
def readLoop (maxBytes : Nat) : Nat → LineState → Source → Option BoundedLine × Source
  | 0, _, source => (none, source)
  | fuel + 1, state, source =>
    match source.fillBuf with
    | (none, source) => (none, source)
    | (some available, source) =>
      if available = [] then
        (some (if state.consumedTotal = 0 then .eof else state.finish), source)
      else
        match available.findIdx? (· == lf) with
        | some newline =>
          (some ((state.copy maxBytes (available.take newline)).advance
            (newline + 1)).finishTerminated, source.consume (newline + 1))
        | none =>
          readLoop maxBytes fuel ((state.copy maxBytes available).advance available.length)
            (source.consume available.length)

def readBoundedLine (source : Source) (maxBytes : Nat) : Option BoundedLine × Source :=
  readLoop maxBytes (source.rest.length + 1) .start source

/-- The field loop of `read`: each span is decoded on its own. -/
def decodeFields (bytes : List UInt8) : Nat → List Field → Option (List String)
  | _, [] => some []
  | offset, field :: fields =>
    match fromUtf8 ((bytes.drop offset).take field.width) with
    | some text => (decodeFields bytes (offset + field.width) fields).map (text :: ·)
    | none => none

/-- The reader; `position` is the cell it shares with its stream. -/
structure Reader where
  source : Source
  layout : Layout
  position : Nat
  seeked : Bool

abbrev Outcome := Except ReaderError (ReadOutcome FixedWidthRecord)

/-- What the reader returns for one in-bound line. -/
def decodeLine (layout : Layout) (bytes : List UInt8) : Outcome :=
  if bytes.length = layout.recordWidth then
    match decodeFields bytes 0 layout.fields with
    | some fields => .ok (.item ⟨fields, layout.names⟩)
    | none => .error malformed
  else .error malformed

namespace Reader

/-- `fixed_width_reader`. -/
def new (source : Source) (layout : Layout) : Reader := ⟨source, layout, 0, false⟩

/-- `FixedWidthReaderStream::open` with an optional inherited position. -/
def openStream (reader : Reader) (inherited : Option Nat) : Reader :=
  { reader with position := inherited.getD 0 }

/-- `FixedWidthReaderStream::update`: the stored state is the bare position. -/
def update (reader : Reader) : Nat := reader.position

/-- The latch is set before the seek it stands for. -/
def seekIfNeeded (reader : Reader) : Bool × Reader :=
  if reader.seeked then (true, reader)
  else if reader.position = 0 then (true, { reader with seeked := true })
  else
    match reader.source.seek reader.position with
    | (done, source) => (done, { reader with source, seeked := true })

def read (reader : Reader) : Outcome × Reader :=
  match reader.seekIfNeeded with
  | (false, reader) => (.error ReaderError.new, reader)
  | (true, reader) =>
    match readBoundedLine reader.source reader.layout.maxRecordBytes with
    | (none, source) => (.error transient, { reader with source })
    | (some .eof, source) => (.ok .endOfInput, { reader with source })
    | (some (.tooLong consumed), source) =>
      (.error malformed, { reader with source, position := reader.position + consumed })
    | (some (.line bytes consumed), source) =>
      (decodeLine reader.layout bytes,
        { reader with source, position := reader.position + consumed })

/-- The reader after `count` read calls. -/
def after (reader : Reader) : Nat → Reader
  | 0 => reader
  | count + 1 => (reader.after count).read.2

/-- The outcome of read call `index`, counted from zero. -/
def outcomeAt (reader : Reader) (index : Nat) : Outcome := (reader.after index).read.1

/-- The outcomes of the first `count` read calls. -/
def outcomes (reader : Reader) (count : Nat) : List Outcome :=
  (List.range count).map reader.outcomeAt

end Reader

end OxideBatch.Item.FixedWidth
