import OxideBatch.Core.Component
import OxideBatch.Item.Source

/-! The restartable JSON Lines reader: the bounded line loop over `fill_buf`,
the seek-before-trust discipline, and the paired position stream. JSON parsing
itself is the parameter `parse`. -/

namespace OxideBatch.Item.JsonLines

open OxideBatch.Core

def lf : UInt8 := 10

def cr : UInt8 := 13

/-- One bounded read of a line. -/
inductive BoundedLine where
  | line (bytes : List UInt8) (consumed : Nat)
  | eof
  | tooLong (consumed : Nat)
  deriving DecidableEq, Repr

/-- Copies `segment` while it fits the remaining budget; the first segment that
does not fit discards the buffer for good. -/
def copyBounded (buf segment : List UInt8) (maxBytes : Nat) (tooLong : Bool) :
    List UInt8 × Bool :=
  if tooLong then (buf, tooLong)
  else if segment.length ≤ maxBytes - buf.length then (buf ++ segment, false)
  else ([], true)

/-- Loop variables of `read_bounded_line`. -/
structure LineState where
  buf : List UInt8
  consumedTotal : Nat
  tooLong : Bool
  pendingCr : Bool

namespace LineState

def start : LineState := ⟨[], 0, false, false⟩

def copy (state : LineState) (maxBytes : Nat) (segment : List UInt8) : LineState :=
  let copied := copyBounded state.buf segment maxBytes state.tooLong
  { state with buf := copied.1, tooLong := copied.2 }

def advance (state : LineState) (amount : Nat) : LineState :=
  { state with consumedTotal := state.consumedTotal + amount }

def finish (state : LineState) : BoundedLine :=
  if state.tooLong then .tooLong state.consumedTotal
  else .line state.buf state.consumedTotal

/-- A withheld `\r` that turned out not to precede `\n` is payload. -/
def flushCr (state : LineState) (maxBytes : Nat) : LineState :=
  if state.pendingCr then { state.copy maxBytes [cr] with pendingCr := false } else state

end LineState

/-- Where the payload of a chunk ending a line at `newline` stops. -/
def payloadEnd (available : List UInt8) (newline : Nat) : Nat :=
  newline - (if 0 < newline ∧ available[newline - 1]? = some cr then 1 else 0)

/-- One pass over the chunk `fill_buf` offered, once no `\r\n` pair straddles
its start: either the line ends inside the chunk or the whole chunk is taken. -/
def takeChunk (maxBytes : Nat) (state : LineState) (available : List UInt8) :
    LineState × Nat × Bool :=
  match available.findIdx? (· == lf) with
  | some newline =>
    ((state.copy maxBytes (available.take (payloadEnd available newline))).advance (newline + 1),
      newline + 1, true)
  | none =>
    if available.getLast? = some cr then
      let copied := state.copy maxBytes (available.take (available.length - 1))
      ({ copied.advance available.length with pendingCr := true }, available.length, false)
    else
      ((state.copy maxBytes available).advance available.length, available.length, false)

/-- The `fill_buf` loop. Each served nonempty chunk consumes at least one byte,
so the remaining byte count plus one bounds the iterations. -/
def readLoop (maxBytes : Nat) : Nat → LineState → Source → Option BoundedLine × Source
  | 0, _, source => (none, source)
  | fuel + 1, state, source =>
    match source.fillBuf with
    | (none, source) => (none, source)
    | (some [], source) =>
      let state := state.flushCr maxBytes
      (some (if state.consumedTotal = 0 then .eof else state.finish), source)
    | (some (head :: tail), source) =>
      if state.pendingCr = true ∧ head = lf then
        (some (state.advance 1).finish, source.consume 1)
      else
        match takeChunk maxBytes (state.flushCr maxBytes) (head :: tail) with
        | (state, taken, true) => (some state.finish, source.consume taken)
        | (state, taken, false) => readLoop maxBytes fuel state (source.consume taken)

def readBoundedLine (source : Source) (maxBytes : Nat) : Option BoundedLine × Source :=
  readLoop maxBytes (source.rest.length + 1) .start source

/-- The reader; `position` is the cell it shares with its stream. -/
structure Reader where
  source : Source
  maxRecordBytes : Nat
  position : Nat
  needsSeek : Bool

/-- `jsonl_reader`: nothing is trusted about the physical cursor yet. -/
def Reader.new (source : Source) (maxRecordBytes : Nat) : Reader :=
  ⟨source, maxRecordBytes, 0, true⟩

abbrev Outcome (Item : Type u) := Except ReaderError (ReadOutcome Item)

def transient : ReaderError := .withCategory .transientInfrastructure

/-- A malformed or oversized line, already consumed through its boundary. -/
def malformed : ReaderError := ReaderError.new.withCheckpointAdvanced true

def Reader.seekIfNeeded (reader : Reader) : Bool × Reader :=
  if reader.needsSeek then
    match reader.source.seek reader.position with
    | (false, source) => (false, { reader with source })
    | (true, source) => (true, { reader with source, needsSeek := false })
  else (true, reader)

section Read

variable {Item : Type u} (parse : List UInt8 → Option Item)

/-- What the reader returns for one complete line payload. -/
def decodeLine (bytes : List UInt8) : Outcome Item :=
  match parse bytes with
  | some value => .ok (.item value)
  | none => .error malformed

def Reader.read (reader : Reader) : Outcome Item × Reader :=
  match reader.seekIfNeeded with
  | (false, reader) => (.error transient, reader)
  | (true, reader) =>
    match readBoundedLine reader.source reader.maxRecordBytes with
    | (none, source) => (.error transient, { reader with source, needsSeek := true })
    | (some .eof, source) => (.ok .endOfInput, { reader with source })
    | (some (.tooLong consumed), source) =>
      (.error malformed, { reader with source, position := reader.position + consumed })
    | (some (.line bytes consumed), source) =>
      (decodeLine parse bytes, { reader with source, position := reader.position + consumed })

end Read

/-- `JsonLinesReaderStream::update`: the stored state is the bare position. -/
def Reader.update (reader : Reader) : Nat := reader.position

/-- `JsonLinesReaderStream::open` with an optional inherited position. -/
def Reader.openStream (reader : Reader) (inherited : Option Nat) : Reader :=
  { reader with position := inherited.getD 0 }

/-- A fresh reader over the same bytes, its physical cursor wherever the new
handle happens to be, opened from an inherited position. -/
def Reader.restart (reader : Reader) (cursor : Nat) (inherited : Option Nat) : Reader :=
  (Reader.new { reader.source with cursor } reader.maxRecordBytes).openStream inherited

/-- What a driver may do: read, store the position, or crash and restart from
the stored position. -/
inductive Action where
  | read
  | store
  | restart (cursor : Nat)
  deriving DecidableEq, Repr

/-- A driven reader. `kept` are the outcomes covered by the stored position and
`fresh` those since; a restart forgets the latter, which are read again. -/
structure Session (Item : Type u) where
  reader : Reader
  stored : Option Nat
  kept : List (Outcome Item)
  fresh : List (Outcome Item)

/-- A new reader over `source`, its stream opened without inherited state. -/
def Session.start (Item : Type u) (source : Source) (maxRecordBytes : Nat) : Session Item :=
  ⟨(Reader.new source maxRecordBytes).openStream none, none, [], []⟩

def Session.outcomes (session : Session Item) : List (Outcome Item) :=
  session.kept ++ session.fresh

section Step

variable {Item : Type u} (parse : List UInt8 → Option Item)

def Session.step (session : Session Item) : Action → Session Item
  | .read =>
    let answer := session.reader.read parse
    { session with reader := answer.2, fresh := session.fresh ++ [answer.1] }
  | .store =>
    { session with
      stored := some session.reader.update, kept := session.outcomes, fresh := [] }
  | .restart cursor =>
    { session with reader := session.reader.restart cursor session.stored, fresh := [] }

def Session.run (session : Session Item) (actions : List Action) : Session Item :=
  actions.foldl (Session.step parse) session

end Step

end OxideBatch.Item.JsonLines
