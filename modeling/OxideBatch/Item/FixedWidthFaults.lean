import OxideBatch.Item.FixedWidth
import OxideBatch.Item.JsonLinesRestart

/-! The fixed-width reader under transient faults. A `fill_buf` that fails before
a line has given any byte is harmless; one that fails inside a line, or a failed
seek, is not, because the retried call trusts the physical cursor. -/

namespace OxideBatch.Item.FixedWidth

open OxideBatch.Core
open OxideBatch.Item.Delimited (transient malformed)
open OxideBatch.Item.JsonLines (BoundedLine copyBounded lf cr findIdx?_newline firstLine boundary line_cases
  dropTerminatorCr firstLine_terminated firstLine_unterminated isTransient durable durable_append)

/-- No `fill_buf` fails before the terminator of the line that goes on at the
cursor, or before the end of input. -/
def lineServed : Nat → Source → Bool
  | 0, _ => true
  | fuel + 1, source =>
    match source.fillBuf with
    | (none, _) => false
    | (some available, source) =>
      available.isEmpty || available.contains lf ||
        lineServed fuel (source.consume available.length)

/-- Only the first `fill_buf` of a line may fail, and it leaves the cursor. -/
def lineUnbroken (source : Source) : Bool :=
  match source.fillBuf with
  | (none, after) => after.cursor == source.cursor
  | (some _, _) => lineServed (source.rest.length + 1) source

/-- Whether the next read call has a seek to make. -/
def Reader.awaitsSeek (reader : Reader) : Bool := !reader.seeked && reader.position != 0

/-- The source as the next read call finds it once its seek has succeeded. -/
def Reader.lineSource (reader : Reader) : Source :=
  if reader.awaitsSeek then
    { reader.source with cursor := reader.position, calls := reader.source.calls + 1 }
  else reader.source

/-- The next read call meets no failed seek and no failure inside a line. -/
def Reader.undisturbed (reader : Reader) : Bool :=
  (!reader.awaitsSeek || (reader.source.seek reader.position).1) && lineUnbroken reader.lineSource

/-- What one bounded read of `text` reports. The `\r` of a `\r\n` counts towards
the bound and not towards the payload. -/
def expectedLine (maxBytes : Nat) (text : List UInt8) : BoundedLine :=
  if text = [] then .eof
  else if maxBytes < (text.takeWhile (· != lf)).length then .tooLong (firstLine text).2
  else .line (firstLine text).1 (firstLine text).2

/-- The bytes copied so far stand for `body`, the part of the line consumed. -/
structure LineState.Consumed (state : LineState) (maxBytes : Nat) (body : List UInt8) : Prop where
  noLf : ∀ byte ∈ body, byte ≠ lf
  tooLong : state.tooLong = decide (maxBytes < body.length)
  buf : state.buf = if maxBytes < body.length then [] else body
  total : state.consumedTotal = body.length

theorem LineState.start_consumed (maxBytes : Nat) : start.Consumed maxBytes [] :=
  ⟨by simp, by simp [start], by simp [start], rfl⟩

private theorem copyBounded_eq (maxBytes : Nat) (body segment : List UInt8) :
    copyBounded (if maxBytes < body.length then [] else body) segment maxBytes
        (decide (maxBytes < body.length)) =
      (if maxBytes < (body ++ segment).length then [] else body ++ segment,
        decide (maxBytes < (body ++ segment).length)) := by
  by_cases beyond : maxBytes < body.length
  · have later : maxBytes < body.length + segment.length := by omega
    simp [copyBounded, beyond, later]
  · by_cases fits : segment.length ≤ maxBytes - body.length
    · have within : ¬ maxBytes < body.length + segment.length := by omega
      simp [copyBounded, beyond, fits, within]
    · have past : maxBytes < body.length + segment.length := by omega
      simp [copyBounded, beyond, fits, past]

theorem LineState.Consumed.copy {state : LineState} (inv : state.Consumed maxBytes body)
    (segment : List UInt8) :
    (state.copy maxBytes segment).buf =
        (if maxBytes < (body ++ segment).length then [] else body ++ segment) ∧
      (state.copy maxBytes segment).tooLong = decide (maxBytes < (body ++ segment).length) := by
  have copied := copyBounded_eq maxBytes body segment
  rw [← inv.buf, ← inv.tooLong] at copied
  simp only [LineState.copy, copied]
  exact ⟨trivial, trivial⟩

/-- A chunk without a terminator extends the consumed body. -/
theorem LineState.Consumed.extend {state : LineState} (inv : state.Consumed maxBytes body)
    (noLf : ∀ byte ∈ chunk, byte ≠ lf) :
    ((state.copy maxBytes chunk).advance chunk.length).Consumed maxBytes (body ++ chunk) := by
  obtain ⟨buf, tooLong⟩ := inv.copy chunk
  refine ⟨List.forall_mem_append.mpr ⟨inv.noLf, noLf⟩, tooLong, buf, ?_⟩
  simp [LineState.advance, LineState.copy, inv.total]

private theorem takeWhile_terminated (noLf : ∀ byte ∈ body, byte ≠ lf) (rest : List UInt8) :
    (body ++ lf :: rest).takeWhile (· != lf) = body := by
  rw [List.takeWhile_append_of_pos (by simpa using noLf)]
  simp

/-- A terminator inside the chunk finishes the line. -/
theorem LineState.Consumed.finishTerminated {state : LineState}
    (inv : state.Consumed maxBytes body) (noLf : ∀ byte ∈ front, byte ≠ lf) (rest : List UInt8) :
    ((state.copy maxBytes front).advance (front.length + 1)).finishTerminated =
      expectedLine maxBytes (body ++ (front ++ lf :: rest)) := by
  obtain ⟨buf, tooLong⟩ := inv.copy front
  have merged : ∀ byte ∈ body ++ front, byte ≠ lf := List.forall_mem_append.mpr ⟨inv.noLf, noLf⟩
  have span : ((state.copy maxBytes front).advance (front.length + 1)).consumedTotal =
      (body ++ front).length + 1 := by
    simp [LineState.advance, LineState.copy, inv.total, Nat.add_assoc]
  have shape : body ++ (front ++ lf :: rest) = (body ++ front) ++ lf :: rest := by simp
  rw [shape, expectedLine, if_neg (by simp), firstLine_terminated merged,
    takeWhile_terminated merged]
  unfold LineState.finishTerminated
  rw [span]
  by_cases beyond : maxBytes < (body ++ front).length
  · simp only [LineState.advance, tooLong, beyond, decide_true, if_true]
  · simp only [LineState.advance, tooLong, buf, beyond, decide_false, if_false, dropTerminatorCr,
      Bool.false_eq_true]

/-- The end of input finishes the line as it stands. -/
theorem LineState.Consumed.finish {state : LineState} (inv : state.Consumed maxBytes body) :
    (if state.consumedTotal = 0 then BoundedLine.eof else state.finish) =
      expectedLine maxBytes body := by
  have whole : body.takeWhile (· != lf) = body :=
    List.takeWhile_eq_self_iff.mpr (by simpa using inv.noLf)
  by_cases empty : body = []
  · simp [inv.total, expectedLine, empty]
  · have some : body.length ≠ 0 := fun none => empty (List.length_eq_zero_iff.mp none)
    rw [inv.total, if_neg some, expectedLine, if_neg empty, whole, firstLine_unterminated inv.noLf]
    by_cases beyond : maxBytes < body.length
    · simp [LineState.finish, inv.tooLong, inv.total, beyond]
    · simp [LineState.finish, inv.tooLong, inv.buf, inv.total, beyond]

/-- A loop whose line is served whole reports that line and stops at its end. -/
private theorem readLoop_served (maxBytes fuel : Nat) {state : LineState} {source : Source}
    (inv : state.Consumed maxBytes body) (enough : source.rest.length < fuel)
    (served : lineServed fuel source = true) :
    ∃ after, readLoop maxBytes fuel state source =
        (some (expectedLine maxBytes (body ++ source.rest)), after) ∧ source.Follows after ∧
      after.cursor + body.length = source.cursor + (firstLine (body ++ source.rest)).2 := by
  induction fuel generalizing state source body with
  | zero => omega
  | succ fuel ih =>
    rcases source.fillBuf_cases with ⟨after, call, _⟩ | ⟨after, extra, call, follows, kept⟩
    · simp [lineServed, call] at served
    simp only [lineServed, call] at served
    generalize chunked : source.rest.take (extra + 1) = chunk at *
    obtain ⟨remaining, split⟩ : ∃ remaining, source.rest = chunk ++ remaining :=
      ⟨source.rest.drop (extra + 1), by rw [← chunked, List.take_append_drop]⟩
    by_cases empty : chunk = []
    · have ended : source.rest = [] := by
        cases rest : source.rest with
        | nil => rfl
        | cons head tail => simp [rest, empty] at chunked
      refine ⟨after, ?_, follows, ?_⟩
      · simp only [readLoop, call, empty, if_true, ended, List.append_nil, inv.finish]
      · rw [ended, List.append_nil, firstLine_unterminated inv.noLf, kept]
    rcases line_cases chunk with noLf | ⟨front, others, shape, noLf⟩
    · have missing : chunk.findIdx? (· == lf) = none :=
        List.findIdx?_eq_none_iff.mpr fun byte member => by simpa using noLf byte member
      have onward := follows.trans (after.consume_follows chunk.length)
      have reached : (after.consume chunk.length).rest = remaining := by
        have same : after.rest = source.rest := by
          rw [Source.rest, Source.rest, follows.bytes, kept]
        rw [Source.consume_rest, same, split, List.drop_left]
      have positive := List.length_pos_iff.mpr empty
      have shorter : (after.consume chunk.length).rest.length < fuel := by
        rw [split, List.length_append] at enough
        rw [reached]
        omega
      have later : lineServed fuel (after.consume chunk.length) = true := by
        have absent : lf ∉ chunk := fun member => noLf lf member rfl
        simpa [empty, absent] using served
      obtain ⟨final, result, further, span⟩ := ih (inv.extend noLf) shorter later
      rw [reached, List.append_assoc, ← split] at result span
      refine ⟨final, ?_, onward.trans further, ?_⟩
      · simp only [readLoop, call, if_neg empty, missing, result]
      · rw [Source.consume_cursor, kept, List.length_append] at span
        omega
    · have found := findIdx?_newline noLf others
      have merged : ∀ byte ∈ body ++ front, byte ≠ lf :=
        List.forall_mem_append.mpr ⟨inv.noLf, noLf⟩
      have joined : body ++ source.rest = (body ++ front) ++ lf :: (others ++ remaining) := by
        rw [split, shape]
        simp
      refine ⟨after.consume (front.length + 1), ?_,
        follows.trans (after.consume_follows _), ?_⟩
      · have prefixed : chunk.take front.length = front := by rw [shape]; simp
        rw [← shape] at found
        have line := inv.finishTerminated noLf (others ++ remaining)
        rw [split, shape]
        simp only [readLoop, call, if_neg empty, found, prefixed, line]
        simp
      · rw [joined, firstLine_terminated merged, Source.consume_cursor, kept, List.length_append]
        omega

/-- An unbroken line is read whole, or its first `fill_buf` fails in place. -/
private theorem readBoundedLine_unbroken {source : Source} (unbroken : lineUnbroken source = true)
    (maxBytes : Nat) :
    (∃ after, readBoundedLine source maxBytes = (none, after) ∧ source.Follows after ∧
      source.FailedBetween after ∧ after.cursor = source.cursor) ∨
    (∃ after, readBoundedLine source maxBytes = (some (expectedLine maxBytes source.rest), after) ∧
      source.Follows after ∧ after.cursor = source.cursor + (firstLine source.rest).2) := by
  rcases source.fillBuf_cases with ⟨after, call, follows, failed⟩ | ⟨after, extra, call, _⟩
  · left
    refine ⟨after, by simp [readBoundedLine, readLoop, call], follows, failed, ?_⟩
    simpa [lineUnbroken, call] using unbroken
  · right
    have served : lineServed (source.rest.length + 1) source = true := by
      simpa [lineUnbroken, call] using unbroken
    simpa [readBoundedLine] using readLoop_served maxBytes _ (LineState.start_consumed maxBytes)
      (Nat.lt_succ_self _) served

/-- What the reader returns for the record that starts `text`. -/
def specRecord (layout : Layout) (text : List UInt8) : Outcome :=
  match expectedLine layout.maxRecordBytes text with
  | .eof => .ok .endOfInput
  | .tooLong _ => .error malformed
  | .line bytes _ => decodeLine layout bytes

/-- The byte offset of record `index`, counted from the record at `start`. -/
def recordStart (bytes : List UInt8) (start index : Nat) : Nat :=
  start + boundary (bytes.drop start) index

/-- The outcome a reader opened at byte `start` owes to its `index`-th record. -/
def specOutcome (layout : Layout) (bytes : List UInt8) (start index : Nat) : Outcome :=
  specRecord layout (bytes.drop (recordStart bytes start index))

private theorem recordStart_succ (bytes : List UInt8) (start index : Nat) :
    recordStart bytes start (index + 1) =
      recordStart bytes start index +
        (firstLine (bytes.drop (recordStart bytes start index))).2 := by
  simp only [recordStart, boundary, List.drop_drop, Nat.add_assoc]

theorem specRecord_not_transient (layout : Layout) (text : List UInt8) :
    isTransient (specRecord layout text) = false := by
  unfold specRecord
  split
  · rfl
  · rfl
  · unfold decodeLine
    split
    · split <;> rfl
    · rfl

/-- The reader stands before record `index`: its position is that record's
offset, and once the latch is set the physical cursor is there too. -/
structure Reader.At (reader : Reader) (layout : Layout) (bytes : List UInt8)
    (start index : Nat) : Prop where
  sameBytes : reader.source.bytes = bytes
  sameLayout : reader.layout = layout
  position : reader.position = recordStart bytes start index
  confirmed : reader.awaitsSeek = false → reader.source.cursor = reader.position

theorem Reader.At.lineSource {reader : Reader} {layout : Layout}
    (here : reader.At layout bytes start index) :
    reader.lineSource.cursor = recordStart bytes start index ∧
      reader.lineSource.rest = bytes.drop (recordStart bytes start index) := by
  unfold Reader.lineSource
  split
  · exact ⟨here.position, by simp [Source.rest, here.sameBytes, here.position]⟩
  · next settled =>
    have cursor := here.confirmed (by simpa using settled)
    rw [here.position] at cursor
    exact ⟨cursor, by rw [Source.rest, here.sameBytes, cursor]⟩

/-- A seek that does not fail leaves the latch set and the line at the cursor. -/
theorem Reader.seekIfNeeded_eq {reader : Reader}
    (sought : reader.awaitsSeek = true → (reader.source.seek reader.position).1 = true) :
    reader.seekIfNeeded = (true, { reader with source := reader.lineSource, seeked := true }) := by
  by_cases latched : reader.seeked = true
  · have settled : reader.awaitsSeek = false := by simp [awaitsSeek, latched]
    have same : ({ reader with seeked := true } : Reader) = reader := by rw [← latched]
    simp only [seekIfNeeded, lineSource, settled, Bool.false_eq_true, if_false, same, if_pos latched]
  · by_cases initial : reader.position = 0
    · have settled : reader.awaitsSeek = false := by simp [awaitsSeek, initial]
      simp [seekIfNeeded, latched, initial, lineSource, settled]
    · have awaits : reader.awaitsSeek = true := by simp [awaitsSeek, latched, initial]
      have served := sought awaits
      unfold Source.seek at served
      cases answer : reader.source.plan reader.source.calls with
      | fail cursor => simp [answer] at served
      | serve extra =>
        simp [seekIfNeeded, latched, initial, lineSource, awaits, Source.seek, answer]

theorem Reader.follows_lineSource (reader : Reader) :
    reader.source.Follows reader.lineSource := by
  unfold lineSource
  split
  · exact ⟨rfl, rfl, Nat.le_succ _⟩
  · exact .refl _

/-- One undisturbed read: a transient error before any byte of the record, or
the record's own outcome with the reader at the next one. -/
theorem Reader.read_cases {reader : Reader} {layout : Layout}
    (here : reader.At layout bytes start index)
    (calm : reader.undisturbed = true) :
    (reader.read.1 = .error transient ∧ reader.read.2.At layout bytes start index ∧
      reader.source.FailedBetween reader.read.2.source) ∨
    (reader.read.1 = specOutcome layout bytes start index ∧
      reader.read.2.At layout bytes start (index + 1) ∧
      reader.source.Follows reader.read.2.source) := by
  simp only [undisturbed, Bool.and_eq_true, Bool.or_eq_true, Bool.not_eq_true'] at calm
  obtain ⟨sought, unbroken⟩ := calm
  have seek := reader.seekIfNeeded_eq (fun awaits => by simpa [awaits] using sought)
  obtain ⟨cursor, rest⟩ := here.lineSource
  have follows := reader.follows_lineSource
  have latched : ∀ (source : Source) (position next : Nat),
      source.bytes = bytes → source.cursor = position →
      position = recordStart bytes start next →
      (⟨source, layout, position, true⟩ : Reader).At layout bytes start next :=
    fun source position next sameBytes there same => ⟨sameBytes, rfl, same, fun _ => there⟩
  rcases readBoundedLine_unbroken unbroken reader.layout.maxRecordBytes with
    ⟨after, line, onward, failed, stays⟩ | ⟨after, line, onward, moved⟩
  · left
    rw [here.sameLayout] at line
    simp only [read, seek, here.sameLayout, line]
    refine ⟨trivial, ?_, failed.widen follows⟩
    exact latched after _ index (onward.bytes.trans (follows.bytes.trans here.sameBytes))
      (stays.trans (cursor.trans here.position.symm)) here.position
  · right
    have sameBytes := onward.bytes.trans (follows.bytes.trans here.sameBytes)
    have span := recordStart_succ bytes start index
    rw [cursor, rest] at moved
    rw [rest, here.sameLayout] at line
    simp only [specOutcome, specRecord]
    generalize shape : bytes.drop (recordStart bytes start index) = text at *
    have settled : ∀ consumed, consumed = (firstLine text).2 →
        (⟨after, layout, reader.position + consumed, true⟩ : Reader).At layout bytes start
          (index + 1) := by
      intro consumed same
      rw [here.position, same, ← span]
      exact latched after _ _ sameBytes (moved.trans span.symm) rfl
    have whole := follows.trans onward
    by_cases empty : text = []
    · have still : (⟨after, layout, reader.position, true⟩ : Reader).At layout bytes start
          (index + 1) := settled 0 (by simp [empty, firstLine])
      simp only [expectedLine, empty, if_true] at line
      simpa [read, seek, here.sameLayout, line, empty, expectedLine] using ⟨still, whole⟩
    · by_cases beyond : layout.maxRecordBytes < (text.takeWhile (· != lf)).length
      · simp only [expectedLine, if_neg empty, if_pos beyond] at line
        simpa [read, seek, here.sameLayout, line, expectedLine, empty, beyond]
          using ⟨settled _ rfl, whole⟩
      · simp only [expectedLine, if_neg empty, if_neg beyond] at line
        simpa [read, seek, here.sameLayout, line, expectedLine, empty, beyond]
          using ⟨settled _ rfl, whole⟩

/-- A reader over a fresh handle on `bytes`, opened from an inherited position. -/
def Reader.opened (layout : Layout) (bytes : List UInt8) (plan : Nat → IoAnswer)
    (inherited : Option Nat) : Reader :=
  (Reader.new ⟨bytes, 0, plan, 0⟩ layout).openStream inherited

theorem Reader.opened_at (layout : Layout) (bytes : List UInt8) (plan : Nat → IoAnswer)
    (inherited : Option Nat) :
    (opened layout bytes plan inherited).At layout bytes (inherited.getD 0) 0 := by
  refine ⟨rfl, rfl, rfl, ?_⟩
  intro settled
  have initial : inherited.getD 0 = 0 := by
    simpa [awaitsSeek, opened, new, openStream] using settled
  simp [opened, new, openStream, initial]

theorem Reader.outcomes_succ (reader : Reader) (count : Nat) :
    reader.outcomes (count + 1) = reader.outcomes count ++ [(reader.after count).read.1] := by
  simp [outcomes, List.range_succ, outcomeAt]

/-- Along undisturbed reads the outcomes that are not transient are the
specified ones, and the reader stands before the next record. -/
theorem Reader.run_at {reader : Reader} {layout : Layout} (here : reader.At layout bytes start 0)
    (count : Nat) (calm : ∀ index < count, (reader.after index).undisturbed = true) :
    ∃ delivered,
      durable (reader.outcomes count) =
        (List.range delivered).map (specOutcome layout bytes start) ∧
      (reader.after count).At layout bytes start delivered := by
  induction count with
  | zero => exact ⟨0, rfl, here⟩
  | succ count ih =>
    obtain ⟨delivered, sofar, there⟩ := ih fun index below => calm index (by omega)
    rw [outcomes_succ, durable_append, sofar]
    rcases read_cases there (calm count (Nat.lt_succ_self _)) with
      ⟨outcome, still, _⟩ | ⟨outcome, next, _⟩
    · refine ⟨delivered, ?_, still⟩
      simp [durable, outcome, isTransient, transient, ReaderError.withCategory]
    · refine ⟨delivered + 1, ?_, next⟩
      have kept : isTransient (specOutcome layout bytes start delivered) = false :=
        specRecord_not_transient layout _
      simp [durable, outcome, kept, List.range_succ]

/-- A plan without a failure, cut into chunks of the given sizes. -/
def steady (chunks : Nat → Nat) : Nat → IoAnswer := fun call => .serve (chunks call)

private theorem lineServed_steady (fuel : Nat) {source : Source}
    (serves : source.plan = steady chunks) :
    lineServed fuel source = true := by
  induction fuel generalizing source with
  | zero => rfl
  | succ fuel ih =>
    simp only [lineServed, Source.fillBuf, serves, steady, Bool.or_eq_true]
    exact .inr (ih rfl)

theorem Reader.undisturbed_steady {reader : Reader} (serves : reader.source.plan = steady chunks) :
    reader.undisturbed = true := by
  have sought : (reader.source.seek reader.position).1 = true := by
    simp [Source.seek, serves, steady]
  have same : reader.lineSource.plan = steady chunks := by
    rw [reader.follows_lineSource.plan, serves]
  have unbroken : lineUnbroken reader.lineSource = true := by
    simp only [lineUnbroken, Source.fillBuf, same, steady]
    exact lineServed_steady _ same
  simp [undisturbed, sought, unbroken]

/-- Without faults the outcomes are the specified ones. -/
theorem Reader.outcomes_steady {layout : Layout} (count : Nat) {reader : Reader}
    (here : reader.At layout bytes start 0) (serves : reader.source.plan = steady chunks) :
    reader.outcomes count = (List.range count).map (specOutcome layout bytes start) ∧
      (reader.after count).At layout bytes start count ∧
      (reader.after count).source.plan = steady chunks := by
  induction count with
  | zero => exact ⟨rfl, here, serves⟩
  | succ count ih =>
    obtain ⟨sofar, there, still⟩ := ih
    rcases read_cases there (undisturbed_steady still) with
      ⟨_, _, call, cursor, _, _, failed⟩ | ⟨outcome, next, follows⟩
    · rw [still] at failed
      simp [steady] at failed
    · refine ⟨?_, next, follows.plan.trans still⟩
      simp [outcomes_succ, sofar, outcome, List.range_succ]

/-- The faults of a run are invisible: with the transient errors removed, the
outcomes of its first `count` read calls are those of a run without faults, and
the stored position is the offset of the next unread record. -/
structure FaultsHidden (layout : Layout) (bytes : List UInt8) (inherited : Option Nat)
    (plan : Nat → IoAnswer) (chunks : Nat → Nat) (count : Nat) : Prop where
  outcomes :
    let read := durable ((Reader.opened layout bytes plan inherited).outcomes count)
    read = (Reader.opened layout bytes (steady chunks) inherited).outcomes read.length
  position :
    let reader := Reader.opened layout bytes plan inherited
    (reader.after count).update =
      recordStart bytes (inherited.getD 0) (durable (reader.outcomes count)).length

/-- Faults stay invisible in every run that meets no failed seek and no failed
`fill_buf` inside a line. -/
theorem undisturbed_run_hides_faults (layout : Layout) (bytes : List UInt8)
    (inherited : Option Nat) (plan : Nat → IoAnswer) (chunks : Nat → Nat) (count : Nat)
    (calm : ∀ index < count,
      ((Reader.opened layout bytes plan inherited).after index).undisturbed = true) :
    FaultsHidden layout bytes inherited plan chunks count := by
  obtain ⟨delivered, outcomes, there⟩ :=
    Reader.run_at (Reader.opened_at layout bytes plan inherited) count calm
  have size : (durable ((Reader.opened layout bytes plan inherited).outcomes count)).length =
      delivered := by simp [outcomes]
  obtain ⟨faultless, _⟩ := Reader.outcomes_steady delivered
    (Reader.opened_at layout bytes (steady chunks) inherited) rfl
  constructor
  · simp only [outcomes, faultless, List.length_map, List.length_range]
  · simpa only [size, Reader.update] using there.position

/-- One field of two bytes. -/
def pairLayout : Layout := ⟨[⟨none, 2⟩], .lf, 1024, by simp, by simp⟩

/-- `"ab\ncd\n"` restored at byte 3; the first `fill_buf` after the seek fails. -/
theorem undisturbed_run_hides_faults_restored :
    let plan : Nat → IoAnswer := fun call => if call = 1 then .fail 3 else .serve 63
    FaultsHidden pairLayout [97, 98, 10, 99, 100, 10] (some 3) plan (fun _ => 0) 3 :=
  undisturbed_run_hides_faults pairLayout [97, 98, 10, 99, 100, 10] (some 3) _ _ 3 (by decide)

/-- A failure inside the only record leaves its tail to the retried call, which
reports a malformed line; a failed seek restarts the file from its first byte. -/
theorem faults_split_and_repeat_records :
    (∃ plan chunks, ¬ FaultsHidden pairLayout [97, 98, 10] none plan chunks 2) ∧
    (∃ plan chunks, ¬ FaultsHidden pairLayout [97, 98, 10, 99, 100, 10] (some 3) plan chunks 2) := by
  constructor
  · refine ⟨fun call => if call = 1 then .fail 1 else .serve call, fun _ => 63, fun hidden => ?_⟩
    exact absurd hidden.position (by decide)
  · refine ⟨fun call => if call = 0 then .fail 0 else .serve 63, fun _ => 63, fun hidden => ?_⟩
    exact absurd hidden.outcomes (by decide)

end OxideBatch.Item.FixedWidth
