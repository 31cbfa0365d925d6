import Mathlib
import OxideBatch.Item.JsonLines

/-! The pure line specification of the JSON Lines reader and its refinement:
whatever the chunking, the failures, and the restarts, the outcomes that are not
transient failures are exactly the specified ones, in order. -/

namespace OxideBatch.Item.JsonLines

open OxideBatch.Core

/-- The `\r` that belongs to a `\r\n` terminator is not payload. -/
def dropTerminatorCr (text : List UInt8) : List UInt8 :=
  if text.getLast? = some cr then text.dropLast else text

/-- Split at `\n`; `partialLine` is the reversed unterminated line so far. A final
unterminated line is a record, and a final `\n` starts no further record. -/
def splitLines : List UInt8 → List UInt8 → List (List UInt8)
  | [], [] => []
  | partialLine, [] => [partialLine.reverse]
  | partialLine, byte :: rest =>
    if byte = lf then dropTerminatorCr partialLine.reverse :: splitLines [] rest
    else splitLines (byte :: partialLine) rest

/-- The payloads of every record of a source, in file order. -/
def specLines (bytes : List UInt8) : List (List UInt8) := splitLines [] bytes

section Spec

variable {Item : Type u} (parse : List UInt8 → Option Item) (maxBytes : Nat)

/-- The parse of a payload, or the one error for a record that is too long or does not
parse: a user fault, with the record passed. -/
def specRecord (payload : List UInt8) : Outcome Item :=
  if maxBytes < payload.length then .error ⟨.userComponent, true⟩
  else
    match parse payload with
    | some value => .ok (.item value)
    | none => .error ⟨.userComponent, true⟩

/-- The `index`-th outcome of a fault-free reader: one per record, then the end
of input forever. -/
def specOutcome (bytes : List UInt8) (index : Nat) : Outcome Item :=
  (((specLines bytes)[index]?).map (specRecord parse maxBytes)).getD (.ok .endOfInput)

end Spec

/-- The record that starts a byte string: its payload and its byte span through
the terminator. -/
def firstLine (text : List UInt8) : List UInt8 × Nat :=
  let body := text.takeWhile (· != lf)
  if body.length = text.length then (body, body.length)
  else (dropTerminatorCr body, body.length + 1)

private theorem splitLines_unterminated (partialLine text : List UInt8)
    (noLf : ∀ byte ∈ text, byte ≠ lf) :
    splitLines partialLine text = splitLines (text.reverse ++ partialLine) [] := by
  induction text generalizing partialLine with
  | nil => simp
  | cons byte rest ih =>
    have other : byte ≠ lf := noLf byte (by simp)
    have later : ∀ value ∈ rest, value ≠ lf := fun value member => noLf value (by simp [member])
    simp [splitLines, other, ih _ later, -List.cons_append]

private theorem splitLines_terminated (partialLine body rest : List UInt8)
    (noLf : ∀ byte ∈ body, byte ≠ lf) :
    splitLines partialLine (body ++ lf :: rest) =
      dropTerminatorCr (partialLine.reverse ++ body) :: splitLines [] rest := by
  induction body generalizing partialLine with
  | nil => simp [splitLines]
  | cons byte tail ih =>
    have other : byte ≠ lf := noLf byte (by simp)
    have later : ∀ value ∈ tail, value ≠ lf := fun value member => noLf value (by simp [member])
    simp [splitLines, other, ih _ later]

/-- A text either has no terminator or splits at its first one. -/
theorem line_cases (text : List UInt8) :
    (∀ byte ∈ text, byte ≠ lf) ∨
    ∃ body rest, text = body ++ lf :: rest ∧ ∀ byte ∈ body, byte ≠ lf := by
  induction text with
  | nil => exact .inl (by simp)
  | cons byte tail ih =>
    by_cases same : byte = lf
    · exact .inr ⟨[], tail, by simp [same], by simp⟩
    · rcases ih with none | ⟨body, rest, split, noLf⟩
      · exact .inl (by simpa [same] using none)
      · exact .inr ⟨byte :: body, rest, by simp [split], by simpa [same] using noLf⟩

theorem firstLine_unterminated (noLf : ∀ byte ∈ text, byte ≠ lf) :
    firstLine text = (text, text.length) := by
  have whole : text.takeWhile (· != lf) = text :=
    List.takeWhile_eq_self_iff.mpr (by simpa using noLf)
  simp [firstLine, whole]

theorem firstLine_terminated (noLf : ∀ byte ∈ body, byte ≠ lf) :
    firstLine (body ++ lf :: rest) = (dropTerminatorCr body, body.length + 1) := by
  have whole : (body ++ lf :: rest).takeWhile (· != lf) = body := by
    rw [List.takeWhile_append_of_pos (by simpa using noLf)]
    simp
  simp [firstLine, whole]

/-- Peeling the first record off a nonempty text advances the line list. -/
theorem splitLines_first (text : List UInt8) (nonempty : text ≠ []) :
    splitLines [] text = (firstLine text).1 :: splitLines [] (text.drop (firstLine text).2) := by
  rcases line_cases text with noLf | ⟨body, rest, split, noLf⟩
  · rw [splitLines_unterminated [] text noLf, firstLine_unterminated noLf]
    rw [List.drop_length, List.append_nil]
    cases shape : text.reverse with
    | nil => simp_all
    | cons head tail =>
      have same : text = (head :: tail).reverse := by rw [← shape, List.reverse_reverse]
      simp [splitLines, same]
  · subst split
    rw [splitLines_terminated [] body rest noLf, firstLine_terminated noLf]
    simp

/-- The bounded view of a payload: an oversized one keeps only its span. -/
def bounded (maxBytes : Nat) (payload : List UInt8) (consumed : Nat) : BoundedLine :=
  if maxBytes < payload.length then .tooLong consumed else .line payload consumed

/-- What one bounded read of `text` reports. -/
def expectedLine (maxBytes : Nat) (text : List UInt8) : BoundedLine :=
  if text = [] then .eof else bounded maxBytes (firstLine text).1 (firstLine text).2

/-- The bounded buffer stands for `payload`. -/
structure LineState.Holds (state : LineState) (maxBytes : Nat) (payload : List UInt8) : Prop where
  tooLong : state.tooLong = decide (maxBytes < payload.length)
  buf : state.buf = if maxBytes < payload.length then [] else payload

theorem LineState.start_holds (maxBytes : Nat) : start.Holds maxBytes [] :=
  ⟨by simp [start], by simp [start]⟩

theorem LineState.Holds.copy {state : LineState} (holds : state.Holds maxBytes payload)
    (segment : List UInt8) : (state.copy maxBytes segment).Holds maxBytes (payload ++ segment) := by
  obtain ⟨tooLong, buf⟩ := holds
  by_cases beyond : maxBytes < payload.length
  · have later : maxBytes < payload.length + segment.length := by omega
    constructor <;> simp [LineState.copy, copyBounded, tooLong, buf, beyond, later]
  · by_cases fits : segment.length ≤ maxBytes - payload.length
    · have within : ¬ maxBytes < payload.length + segment.length := by omega
      constructor <;> simp [LineState.copy, copyBounded, tooLong, buf, beyond, fits, within]
    · have past : maxBytes < payload.length + segment.length := by omega
      constructor <;> simp [LineState.copy, copyBounded, tooLong, buf, beyond, fits, past]

theorem LineState.Holds.finish {state : LineState} (holds : state.Holds maxBytes payload) :
    state.finish = bounded maxBytes payload state.consumedTotal := by
  by_cases beyond : maxBytes < payload.length
  · simp [LineState.finish, bounded, holds.tooLong, beyond]
  · simp [LineState.finish, bounded, holds.tooLong, holds.buf, beyond]

theorem LineState.Holds.advance {state : LineState} (holds : state.Holds maxBytes payload)
    (amount : Nat) : (state.advance amount).Holds maxBytes payload :=
  ⟨holds.tooLong, holds.buf⟩

/-- Loop invariant: `body` is the part of the current line consumed so far, with
a trailing `\r` withheld. -/
structure LineState.Consumed (state : LineState) (maxBytes : Nat) (body : List UInt8) : Prop where
  noLf : ∀ byte ∈ body, byte ≠ lf
  holds : state.Holds maxBytes (dropTerminatorCr body)
  pendingCr : state.pendingCr = decide (body.getLast? = some cr)
  total : state.consumedTotal = body.length

private theorem dropTerminatorCr_of_last (last : body.getLast? = some cr) :
    dropTerminatorCr body ++ [cr] = body := by
  obtain ⟨front, same⟩ := List.getLast?_eq_some_iff.mp last
  simp [dropTerminatorCr, same]

theorem dropTerminatorCr_of_not_last (last : body.getLast? ≠ some cr) :
    dropTerminatorCr body = body := by
  simp [dropTerminatorCr, last]

private theorem dropTerminatorCr_append (nonempty : chunk ≠ []) :
    dropTerminatorCr (body ++ chunk) = body ++ dropTerminatorCr chunk := by
  by_cases last : chunk.getLast? = some cr
  · obtain ⟨front, same⟩ := List.getLast?_eq_some_iff.mp last
    subst same
    simp [dropTerminatorCr, ← List.append_assoc]
  · have joined : (body ++ chunk).getLast? = chunk.getLast? :=
      List.getLast?_append_of_ne_nil _ nonempty
    rw [dropTerminatorCr_of_not_last last, dropTerminatorCr_of_not_last (by rwa [joined])]

/-- Releasing a withheld `\r` makes the buffer stand for the whole body. -/
theorem LineState.Consumed.flush {state : LineState} (inv : state.Consumed maxBytes body) :
    (state.flushCr maxBytes).Holds maxBytes body ∧
      (state.flushCr maxBytes).consumedTotal = body.length ∧
      (state.flushCr maxBytes).pendingCr = false := by
  by_cases last : body.getLast? = some cr
  · have pending : state.pendingCr = true := by simp [inv.pendingCr, last]
    have copied := inv.holds.copy [cr]
    rw [dropTerminatorCr_of_last last] at copied
    refine ⟨?_, ?_, ?_⟩
    · simpa [LineState.flushCr, pending] using ⟨copied.tooLong, copied.buf⟩
    · simpa [LineState.flushCr, pending, LineState.copy] using inv.total
    · simp [LineState.flushCr, pending]
  · have pending : state.pendingCr = false := by simp [inv.pendingCr, last]
    have held := inv.holds
    rw [dropTerminatorCr_of_not_last last] at held
    exact ⟨by simpa [LineState.flushCr, pending] using held,
      by simpa [LineState.flushCr, pending] using inv.total,
      by simp [LineState.flushCr, pending]⟩

theorem LineState.start_consumed (maxBytes : Nat) : start.Consumed maxBytes [] :=
  ⟨by simp, start_holds maxBytes, by simp [start], rfl⟩

theorem findIdx?_newline (noLf : ∀ byte ∈ body, byte ≠ lf) (rest : List UInt8) :
    (body ++ lf :: rest).findIdx? (· == lf) = some body.length := by
  induction body with
  | nil => simp [List.findIdx?_cons]
  | cons byte tail ih =>
    have other : byte ≠ lf := noLf byte (by simp)
    simpa [List.findIdx?_cons, other] using ih (fun value member => noLf value (by simp [member]))

private theorem take_payloadEnd (chunk rest : List UInt8) :
    (chunk ++ lf :: rest).take (payloadEnd (chunk ++ lf :: rest) chunk.length) =
      dropTerminatorCr chunk := by
  by_cases last : chunk.getLast? = some cr
  · obtain ⟨front, same⟩ := List.getLast?_eq_some_iff.mp last
    subst same
    simp [payloadEnd, dropTerminatorCr]
  · have keep : ¬ (0 < chunk.length ∧ (chunk ++ lf :: rest)[chunk.length - 1]? = some cr) := by
      rintro ⟨positive, found⟩
      rw [List.getElem?_append_left (by omega)] at found
      exact last (by rw [List.getLast?_eq_getElem?, found])
    rw [payloadEnd, if_neg keep, dropTerminatorCr_of_not_last last]
    simp

private theorem takeChunk_newline (state : LineState) (noLf : ∀ byte ∈ front, byte ≠ lf)
    (others : List UInt8) :
    takeChunk maxBytes state (front ++ lf :: others) =
      ((state.copy maxBytes (dropTerminatorCr front)).advance (front.length + 1),
        front.length + 1, true) := by
  simp only [takeChunk, findIdx?_newline noLf, take_payloadEnd]

private theorem takeChunk_cr (state : LineState) (noLf : ∀ byte ∈ front ++ [cr], byte ≠ lf) :
    takeChunk maxBytes state (front ++ [cr]) =
      ({ (state.copy maxBytes front).advance (front ++ [cr]).length with pendingCr := true },
        (front ++ [cr]).length, false) := by
  have missing : (front ++ [cr]).findIdx? (· == lf) = none :=
    List.findIdx?_eq_none_iff.mpr fun byte member => by simpa using noLf byte member
  have last : (front ++ [cr]).getLast? = some cr := by simp
  have payload : (front ++ [cr]).take ((front ++ [cr]).length - 1) = front := by simp
  simp only [takeChunk, missing, last, if_true, payload]

private theorem takeChunk_plain (state : LineState) (noLf : ∀ byte ∈ chunk, byte ≠ lf)
    (last : chunk.getLast? ≠ some cr) :
    takeChunk maxBytes state chunk =
      ((state.copy maxBytes chunk).advance chunk.length, chunk.length, false) := by
  have missing : chunk.findIdx? (· == lf) = none :=
    List.findIdx?_eq_none_iff.mpr fun byte member => by simpa using noLf byte member
  simp only [takeChunk, missing, if_neg last]

/-- One chunk either completes the first record of the text it starts, or
extends the consumed body by the whole chunk. -/
private theorem takeChunk_cases {state : LineState} (noLf : ∀ byte ∈ body, byte ≠ lf)
    (holds : state.Holds maxBytes body) (total : state.consumedTotal = body.length)
    (flushed : state.pendingCr = false)
    (apart : body.getLast? = some cr → chunk.head? ≠ some lf) (nonempty : chunk ≠ []) :
    (∃ next taken, takeChunk maxBytes state chunk = (next, taken, true) ∧
      taken ≤ chunk.length ∧ ∀ rest,
        next.finish = expectedLine maxBytes (body ++ (chunk ++ rest)) ∧
        body.length + taken = (firstLine (body ++ (chunk ++ rest))).2) ∨
    (∃ next, takeChunk maxBytes state chunk = (next, chunk.length, false) ∧
      next.Consumed maxBytes (body ++ chunk)) := by
  rcases line_cases chunk with whole | ⟨front, others, split, clean⟩
  · right
    have joined : (body ++ chunk).getLast? = chunk.getLast? :=
      List.getLast?_append_of_ne_nil _ nonempty
    have merged : ∀ byte ∈ body ++ chunk, byte ≠ lf :=
      List.forall_mem_append.mpr ⟨noLf, whole⟩
    by_cases last : chunk.getLast? = some cr
    · obtain ⟨front, same⟩ := List.getLast?_eq_some_iff.mp last
      subst same
      have copied := holds.copy front
      refine ⟨_, takeChunk_cr state whole, merged, ?_, ?_, ?_⟩
      · have payload : dropTerminatorCr (body ++ (front ++ [cr])) = body ++ front := by
          rw [dropTerminatorCr_append nonempty]
          simp [dropTerminatorCr]
        rw [payload]
        exact ⟨copied.tooLong, copied.buf⟩
      · simp
      · simp [LineState.advance, LineState.copy, total]
    · have copied := holds.copy chunk
      refine ⟨_, takeChunk_plain state whole last, merged, ?_, ?_, ?_⟩
      · rw [dropTerminatorCr_of_not_last (by rwa [joined])]
        exact copied.advance _
      · simpa [LineState.advance, LineState.copy, joined, last] using flushed
      · simp [LineState.advance, LineState.copy, total]
  · left
    subst split
    refine ⟨_, _, takeChunk_newline state clean others, by simp, fun rest => ?_⟩
    have merged : ∀ byte ∈ body ++ front, byte ≠ lf :=
      List.forall_mem_append.mpr ⟨noLf, clean⟩
    have payload : body ++ dropTerminatorCr front = dropTerminatorCr (body ++ front) := by
      cases front with
      | nil =>
        have last : body.getLast? ≠ some cr := fun found => apart found (by simp)
        simp [dropTerminatorCr, last]
      | cons byte tail => rw [dropTerminatorCr_append (by simp)]
    have shape : body ++ ((front ++ lf :: others) ++ rest) =
        (body ++ front) ++ lf :: (others ++ rest) := by simp
    have copied := holds.copy (dropTerminatorCr front)
    rw [payload] at copied
    rw [shape, (copied.advance _).finish, expectedLine, if_neg (by simp),
      firstLine_terminated merged]
    constructor
    · simp [LineState.advance, LineState.copy, total, Nat.add_assoc]
    · simp [Nat.add_assoc]

/-- From any loop state, the bounded read fails with some I/O call, or reports
the first record of the remaining text and stops at its boundary. -/
private theorem readLoop_spec (maxBytes fuel : Nat) {state : LineState} {source : Source}
    (inv : state.Consumed maxBytes body) (enough : source.rest.length < fuel) :
    (∃ after, readLoop maxBytes fuel state source = (none, after) ∧
      source.Follows after ∧ source.FailedBetween after) ∨
    (∃ after, readLoop maxBytes fuel state source =
        (some (expectedLine maxBytes (body ++ source.rest)), after) ∧
      source.Follows after ∧
      after.cursor + body.length = source.cursor + (firstLine (body ++ source.rest)).2) := by
  induction fuel generalizing state source body with
  | zero => omega
  | succ fuel ih =>
    obtain ⟨held, total, flushed⟩ := inv.flush
    rcases source.fillBuf_cases with ⟨after, call, follows, failed⟩ | ⟨after, extra, call, follows, kept⟩
    · exact .inl ⟨after, by simp [readLoop, call], follows, failed⟩
    cases offered : source.rest.take (extra + 1) with
    | nil =>
      have exhausted : source.rest = [] := by
        cases whole : source.rest with
        | nil => rfl
        | cons head tail => simp [whole] at offered
      refine .inr ⟨after, ?_, follows, ?_⟩
      · rw [offered] at call
        simp only [readLoop, call, exhausted, List.append_nil, expectedLine,
          firstLine_unterminated inv.noLf, held.finish, total, List.length_eq_zero_iff]
      · simp [exhausted, firstLine_unterminated inv.noLf, kept]
    | cons head tail =>
      obtain ⟨remaining, split, reached⟩ : ∃ remaining,
          source.rest = (head :: tail) ++ remaining ∧
          (after.consume (head :: tail).length).rest = remaining := by
        refine ⟨source.rest.drop (extra + 1), ?_, ?_⟩
        · rw [← offered, List.take_append_drop]
        · have same : after.rest = source.rest := by rw [Source.rest, follows.bytes, kept]; rfl
          rw [Source.consume_rest, same, ← offered, List.length_take]
          rcases Nat.le_total (extra + 1) source.rest.length with short | long
          · rw [Nat.min_eq_left short]
          · rw [Nat.min_eq_right long, List.drop_length, List.drop_eq_nil_of_le long]
      rw [offered] at call
      by_cases straddle : state.pendingCr = true ∧ head = lf
      · have ended : source.rest = lf :: (tail ++ remaining) := by
          rw [split, straddle.2, List.cons_append]
        rw [ended, firstLine_terminated inv.noLf]
        refine .inr ⟨after.consume 1, ?_, follows.trans (after.consume_follows 1), ?_⟩
        · simp only [readLoop, call, if_pos straddle]
          rw [(inv.holds.advance 1).finish, expectedLine, if_neg (by simp),
            firstLine_terminated inv.noLf]
          simp [LineState.advance, inv.total]
        · simp only [Source.consume_cursor, kept]
          omega
      · have apart : body.getLast? = some cr → (head :: tail).head? ≠ some lf := by
          intro last found
          exact straddle ⟨by simp [inv.pendingCr, last], by simpa using found⟩
        rcases takeChunk_cases inv.noLf held total flushed apart (List.cons_ne_nil head tail) with
          ⟨next, taken, chunk, _, ends⟩ | ⟨next, chunk, extended⟩
        · obtain ⟨reported, span⟩ := ends remaining
          rw [← split] at reported span
          refine .inr ⟨after.consume taken, ?_, follows.trans (after.consume_follows taken), ?_⟩
          · simp only [readLoop, call, if_neg straddle, chunk, reported]
          · rw [Source.consume_cursor, kept, ← span]
            omega
        · have onward := follows.trans (after.consume_follows (head :: tail).length)
          have shorter : (after.consume (head :: tail).length).rest.length < fuel := by
            rw [split] at enough
            rw [reached]
            simp at enough
            omega
          have unfolded : readLoop maxBytes (fuel + 1) state source =
              readLoop maxBytes fuel next (after.consume (head :: tail).length) := by
            simp only [readLoop, call, if_neg straddle, chunk]
          rw [unfolded]
          rcases ih extended shorter with ⟨final, result, later, failed⟩ | ⟨final, result, later, span⟩
          · exact .inl ⟨final, result, onward.trans later, failed.widen onward⟩
          · rw [reached, List.append_assoc, ← split] at result span
            refine .inr ⟨final, result, onward.trans later, ?_⟩
            rw [Source.consume_cursor, kept, List.length_append] at span
            omega

/-- A bounded read either fails together with some I/O call, or reports the
first record of the rest and leaves the cursor at its boundary. -/
theorem readBoundedLine_cases (source : Source) (maxBytes : Nat) :
    (∃ after, readBoundedLine source maxBytes = (none, after) ∧
      source.Follows after ∧ source.FailedBetween after) ∨
    (∃ after, readBoundedLine source maxBytes = (some (expectedLine maxBytes source.rest), after) ∧
      source.Follows after ∧ after.cursor = source.cursor + (firstLine source.rest).2) := by
  simpa [readBoundedLine] using readLoop_spec maxBytes (source.rest.length + 1)
    (LineState.start_consumed maxBytes) (Nat.lt_succ_self source.rest.length)

end OxideBatch.Item.JsonLines
