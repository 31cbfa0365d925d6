import OxideBatch.Item.CsvMachine
import OxideBatch.Item.DelimitedRows

/-! The bounds of one raw record: the loop never slices past its buffers, the output
buffer stays within the record bound, and neither the chunking nor the bound decides
how much of the source a record takes. -/

namespace OxideBatch.Item.Delimited

variable {core : CsvCore}

section Unlimited

/-- Parsing one record with room for whatever it holds: the text in one piece and then,
where the parser asks for more, the end of the input. -/
def parseUnlimited (core : CsvCore) (room : Nat) (state : core.State) (text : List UInt8) :
    Option (List UInt8 × List Nat) :=
  let call := core.readRecord state text room room
  match call.result with
  | .record => some (call.output, call.ends)
  | .inputEmpty =>
    let last := core.readRecord call.state [] room room
    match last.result with
    | .record => some (call.output ++ last.output, call.ends ++ last.ends)
    | _ => none
  | _ => none

variable {contract : core.Contract} {state : core.State} {text input output : List UInt8}
  {ends : List Nat} {taken room : Nat}

/-- A parser that is given more room than the text is long never asks for more. -/
private theorem roomy_call (inside : contract.Inside state text taken output ends)
    (feeds : Feeds text taken input) (ample : text.length < room) :
    (core.readRecord state input room room).result ≠ .outputFull ∧
      (core.readRecord state input room room).result ≠ .outputEndsFull := by
  obtain ⟨within, _, _⟩ := contract.call_bounds room room inside feeds
  have short : input.length ≤ text.length := by
    have bound := feeds.ofText.length_le
    rw [List.length_drop] at bound
    omega
  constructor
  · intro asks
    obtain ⟨full, _⟩ := contract.call_outputFull room room inside feeds asks
    obtain ⟨_, perByte, _⟩ := contract.call_unfinished room room inside feeds
      (by simp [asks]) (by simp [asks])
    omega
  · intro asks
    have full := contract.call_outputEndsFull room room inside feeds asks
    obtain ⟨_, _, perByte⟩ := contract.call_unfinished room room inside feeds
      (by simp [asks]) (by simp [asks])
    omega

/-- With unlimited buffers the scanned record is parsed. -/
private theorem parseUnlimited_scan {parsed : Parsed} (inside : contract.Inside state text 0 [] [])
    (found : contract.scan text = some parsed) (ample : text.length < room) :
    parseUnlimited core room state text = some (parsed.output, parsed.ends) := by
  have whole : Feeds text 0 text := ⟨List.prefix_rfl, id⟩
  obtain ⟨notOutput, notEnds⟩ := roomy_call inside whole ample
  cases answer : (core.readRecord state text room room).result with
  | outputFull => exact absurd answer notOutput
  | outputEndsFull => exact absurd answer notEnds
  | atEnd =>
    obtain ⟨nothing, _⟩ := contract.call_atEnd room room inside whole answer
    rw [nothing] at found
    cases found
  | record =>
    obtain ⟨scanned, _⟩ := contract.call_record room room inside whole answer
    rw [found] at scanned
    cases scanned
    simp [parseUnlimited, answer]
  | inputEmpty =>
    obtain ⟨_, all⟩ := contract.call_inputEmpty room room inside whole answer
    obtain ⟨later, _, _⟩ := contract.call_unfinished room room inside whole
      (by simp [answer]) (by simp [answer])
    have close : Feeds text (0 + (core.readRecord state text room room).nin) [] :=
      ⟨List.nil_prefix, fun _ => by rw [all, Nat.zero_add, List.drop_length]⟩
    obtain ⟨notOutput', notEnds'⟩ := roomy_call later close ample
    cases last : (core.readRecord (core.readRecord state text room room).state [] room
        room).result with
    | outputFull => exact absurd last notOutput'
    | outputEndsFull => exact absurd last notEnds'
    | inputEmpty => exact absurd rfl (contract.call_inputEmpty room room later close last).1
    | atEnd =>
      obtain ⟨nothing, _⟩ := contract.call_atEnd room room later close last
      rw [nothing] at found
      cases found
    | record =>
      obtain ⟨scanned, _⟩ := contract.call_record room room later close last
      rw [found] at scanned
      cases scanned
      simp [parseUnlimited, answer, last]

end Unlimited

/-- The filled parts lie inside their buffers, and the output buffer inside the bound. -/
structure RawState.Sized (raw : RawState) (maxRecordBytes : Nat) : Prop where
  outputFits : raw.output.length ≤ raw.outputSize
  endsFits : raw.ends.length ≤ raw.endsSize
  outputBound : raw.outputSize ≤ maxRecordBytes

namespace RawState.Sized

variable {raw : RawState} {maxRecordBytes : Nat}

theorem start (maxRecordBytes : Nat) : RawState.start.Sized maxRecordBytes :=
  ⟨Nat.le_refl _, Nat.le_refl _, Nat.zero_le _⟩

theorem absorb (sized : raw.Sized maxRecordBytes) {call : RecordCall State}
    (outputRoom : call.output.length ≤ raw.rooms.1) (endsRoom : call.ends.length ≤ raw.rooms.2) :
    (raw.absorb maxRecordBytes call).Sized maxRecordBytes := by
  obtain ⟨outputFits, endsFits, outputBound⟩ := sized
  cases beyond : raw.oversized with
  | true => exact ⟨by simpa [RawState.absorb, beyond], by simpa [RawState.absorb, beyond],
      by simpa [RawState.absorb, beyond]⟩
  | false =>
    simp only [RawState.rooms, beyond, Bool.false_eq_true, if_false] at outputRoom endsRoom
    refine ⟨?_, ?_, ?_⟩ <;>
      simp only [RawState.absorb, beyond, Bool.false_eq_true, if_false, List.length_append] <;>
      omega

theorem growOutput (sized : raw.Sized maxRecordBytes) :
    (raw.growOutput maxRecordBytes).Sized maxRecordBytes := by
  obtain ⟨outputFits, endsFits, outputBound⟩ := sized
  unfold RawState.growOutput
  split
  · exact ⟨outputFits, endsFits, outputBound⟩
  · split
    · exact ⟨outputFits, endsFits, outputBound⟩
    · rename_i grows
      exact ⟨Nat.le_trans outputFits (Nat.le_of_not_le grows), endsFits, Nat.min_le_right _ _⟩

theorem growEnds (sized : raw.Sized maxRecordBytes) : raw.growEnds.Sized maxRecordBytes := by
  obtain ⟨outputFits, endsFits, outputBound⟩ := sized
  unfold RawState.growEnds
  split
  · exact ⟨outputFits, endsFits, outputBound⟩
  · refine ⟨outputFits, ?_, outputBound⟩
    dsimp only
    omega

end RawState.Sized

section Visits

variable (core) (maxRecordBytes : Nat)

/-- The loop variables of `read_raw_record` at the head of every iteration and behind the
accounting of every call. -/
def rawVisits : Nat → RawState → core.State → Source → List RawState
  | 0, raw, _, _ => [raw]
  | fuel + 1, raw, state, source =>
    match source.fillBuf with
    | (none, _) => [raw]
    | (some input, source) =>
      let call := readRecord core raw state input
      let source := source.consume call.nin
      let absorbed := raw.absorb maxRecordBytes call
      raw :: absorbed ::
        match call.result with
        | .inputEmpty => rawVisits fuel absorbed call.state source
        | .outputFull => rawVisits fuel (absorbed.growOutput maxRecordBytes) call.state source
        | .outputEndsFull => rawVisits fuel absorbed.growEnds call.state source
        | .record => []
        | .atEnd => []

variable {core maxRecordBytes}

/-- Every state of the loop is sized: no slice it takes starts behind the end of its buffer. -/
private theorem rawVisits_sized {contract : core.Contract} (fuel : Nat) {raw : RawState}
    {state : core.State} {source : Source} {text output : List UInt8} {ends : List Nat}
    (tracks : raw.Tracks contract maxRecordBytes text state output ends)
    (stands : StandsIn source text base raw.consumed) (sized : raw.Sized maxRecordBytes) :
    ∀ visited ∈ rawVisits core maxRecordBytes fuel raw state source,
      visited.Sized maxRecordBytes := by
  induction fuel generalizing raw state source output ends with
  | zero => simpa [rawVisits] using sized
  | succ fuel ih =>
    rcases source.fillBuf_cases with ⟨after, served, _, _⟩ | ⟨after, extra, served, _, _⟩
    · simpa [rawVisits, served] using sized
    obtain ⟨input, offered⟩ : ∃ input, source.rest.take (extra + 1) = input := ⟨_, rfl⟩
    rw [offered] at served
    obtain ⟨_, feeds, room, standing⟩ := stands.offers served
    obtain ⟨taken, outputRoom, endsRoom⟩ :=
      contract.call_bounds raw.rooms.1 raw.rooms.2 tracks.inside feeds
    have absorbed := sized.absorb outputRoom endsRoom
    obtain ⟨onInput, onOutput, onEnds⟩ := tracks.next feeds room
    have stands' := standing _ taken
    -- whichever buffer grows, the iterations behind the call are sized
    have visits : ∀ {next : RawState} {output' : List UInt8} {ends' : List Nat},
        next.Tracks contract maxRecordBytes text (readRecord core raw state input).state
          output' ends' →
        next.consumed = raw.consumed + (readRecord core raw state input).nin →
        next.Sized maxRecordBytes →
        ∀ visited ∈ rawVisits core maxRecordBytes fuel next (readRecord core raw state input).state
          (after.consume (readRecord core raw state input).nin),
          visited.Sized maxRecordBytes :=
      fun tracked same fits => ih tracked (same ▸ stands') fits
    intro visited member
    simp only [rawVisits, served, List.mem_cons] at member
    rcases member with rfl | rfl | behind
    · exact sized
    · exact absorbed
    cases answer : (readRecord core raw state input).result with
    | inputEmpty =>
      rw [answer] at behind
      exact visits (onInput answer).1 (by simp) absorbed visited behind
    | outputFull =>
      rw [answer] at behind
      exact visits (onOutput answer).1 (by simp) absorbed.growOutput visited behind
    | outputEndsFull =>
      rw [answer] at behind
      exact visits (onEnds answer).1 (by simp) absorbed.growEnds visited behind
    | record =>
      rw [answer] at behind
      cases behind
    | atEnd =>
      rw [answer] at behind
      cases behind

end Visits

/-- One raw read from a record boundary, with whatever chunks and any bound: it ends, no
slice of it is out of range and the output buffer keeps within the bound; the bytes taken
are those up to the next boundary; a record is reported as oversized exactly when it spans
more than the bound, and else as it parses with unlimited buffers. -/
theorem raw_record_bounded (contract : core.Contract) (maxRecordBytes : Nat) {state : core.State}
    {source : Source} {fuel : Nat} (boundary : contract.Inside state source.rest 0 [] [])
    (enough : 3 * source.rest.length + 3 ≤ fuel) :
    let answer := rawLoop core maxRecordBytes fuel .start state source
    (∀ visited ∈ rawVisits core maxRecordBytes fuel .start state source,
      visited.Sized maxRecordBytes) ∧
    (answer.1 = none → source.FailedBetween answer.2.2) ∧
    ∀ raw, answer.1 = some raw →
      answer.2.2.cursor = source.cursor + contract.reach source.rest ∧
      (raw = .eof ↔ contract.scan source.rest = none) ∧
      ((∃ consumed, raw = .oversized consumed) ↔
        contract.scan source.rest ≠ none ∧ maxRecordBytes < contract.reach source.rest) ∧
      (∀ consumed, raw = .oversized consumed → consumed = contract.reach source.rest) ∧
      ∀ consumed output ends, raw = .fields consumed output ends →
        consumed = contract.reach source.rest ∧ ∀ room, source.rest.length < room →
          parseUnlimited core room state source.rest = some (output, ends) := by
  intro answer
  have tracks := RawState.start_tracks contract maxRecordBytes boundary
  have stands : StandsIn source source.rest source.cursor RawState.start.consumed :=
    ⟨rfl, rfl, Nat.zero_le _⟩
  have debt := RawState.debt_le .start (source.rest.length - RawState.start.consumed)
  have ended := rawLoop_answers contract maxRecordBytes fuel tracks stands
    (Nat.lt_of_le_of_lt debt (by simp only [RawState.start]; omega))
  refine ⟨rawVisits_sized fuel tracks stands (.start _), ?_, ?_⟩
  · intro failed
    rcases ended with ⟨_, _, between⟩ | ⟨reported, _⟩
    · exact between
    · rw [reported] at failed
      cases failed
  · intro raw reported
    rcases ended with ⟨failed, _⟩ | ⟨expected, _, reached, _⟩
    · rw [failed] at reported
      cases reported
    rw [expected] at reported
    cases reported
    refine ⟨reached, ?_⟩
    cases found : contract.scan source.rest with
    | none => simp [expectedRaw, found]
    | some parsed =>
      have span : contract.reach source.rest = parsed.span := by
        simp [CsvCore.Contract.reach, found]
      by_cases longer : maxRecordBytes < parsed.span
      · simp [expectedRaw, found, span, longer]
      · simp only [expectedRaw, found, span, longer, if_false]
        refine ⟨by simp, by simp, by simp, ?_⟩
        intro consumed output ends same
        cases same
        exact ⟨rfl, fun room ample => parseUnlimited_scan boundary found ample⟩

/-- A quoted record behind a blank line, offered in chunks of two bytes. -/
theorem raw_record_bounded_at_quotes :
    let core := (csvMachine Dialect.csv.toCoreSettings).core
    let source : Source := ⟨[10, 34, 97, 34, 34, 34, 10, 98], 0, fun _ => .serve 1, 0⟩
    (rawLoop core 7 27 .start core.start source).1 = some (.fields 7 [97, 34] [2]) ∧
      ∀ raw, (rawLoop core 7 27 .start core.start source).1 = some raw →
        (rawLoop core 7 27 .start core.start source).2.2.cursor = 7 := by
  intro core source
  have settled := @raw_record_bounded core (csvMachine Dialect.csv.toCoreSettings).contract 7
    core.start source 27 ((csvMachine Dialect.csv.toCoreSettings).contract.start_inside _)
    (by decide)
  refine ⟨by decide +kernel, fun raw reported => ?_⟩
  exact (settled.2.2 raw reported).1.trans (by decide +kernel)

/-- Blank lines belong to the record behind them: where none is left the end of the input
is reported, however many bytes the call has taken. -/
theorem blank_lines_pass_the_bound :
    let core := (csvMachine Dialect.csv.toCoreSettings).core
    let source : Source := ⟨[10, 10], 0, fun _ => .serve 7, 0⟩
    let answer := readRawRecord core 1 core.start source
    answer.1 = some .eof ∧ answer.2.2.cursor = 2 ∧
      ¬ ((∃ consumed, answer.1 = some (.oversized consumed)) ↔
        1 < answer.2.2.cursor - source.cursor) := by
  have answered : (readRawRecord (csvMachine Dialect.csv.toCoreSettings).core 1
      (csvMachine Dialect.csv.toCoreSettings).core.start
      ⟨[10, 10], 0, fun _ => .serve 7, 0⟩).1 = some .eof := by decide +kernel
  refine ⟨answered, by decide +kernel, ?_⟩
  rw [answered]
  rintro same
  obtain ⟨consumed, reported⟩ := same.mpr (by decide +kernel)
  cases reported

end OxideBatch.Item.Delimited
