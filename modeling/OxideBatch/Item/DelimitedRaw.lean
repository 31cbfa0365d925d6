import OxideBatch.Item.Delimited

/-! One raw record under the parser contract: whatever the chunking, the bounded
loop returns the scanned record, or its span alone when it is oversized. -/

namespace OxideBatch.Item.Delimited

variable {core : CsvCore}

/-- What one raw read of `text` reports. -/
def expectedRaw (contract : core.Contract) (maxRecordBytes : Nat) (text : List UInt8) :
    RawRecord :=
  match contract.scan text with
  | none => .eof
  | some parsed =>
    if maxRecordBytes < parsed.span then .oversized parsed.span
    else .fields parsed.span parsed.output parsed.ends

/-- The text behind the record that starts `text`. -/
def remainder (contract : core.Contract) (text : List UInt8) : List UInt8 :=
  text.drop (contract.reach text)

/-- The retained buffers of a record that is still in bound. -/
structure RawState.Retains (raw : RawState) (maxRecordBytes : Nat) (output : List UInt8)
    (ends : List Nat) : Prop where
  output : raw.output = output
  ends : raw.ends = ends
  withinBound : raw.consumed ≤ maxRecordBytes
  outputFits : raw.output.length ≤ raw.outputSize
  outputBound : raw.outputSize ≤ maxRecordBytes
  endsFits : raw.ends.length ≤ raw.endsSize

/-- Loop invariant: the parser is `raw.consumed` bytes inside the record that
starts `text`, and a record is given up only once its span exceeds the bound. -/
structure RawState.Tracks (raw : RawState) (contract : core.Contract) (maxRecordBytes : Nat)
    (text : List UInt8) (state : core.State) (output : List UInt8) (ends : List Nat) : Prop where
  inside : contract.Inside state text raw.consumed output ends
  outputs : output.length ≤ raw.consumed
  retains : raw.oversized = false → raw.Retains maxRecordBytes output ends
  exceeds : raw.oversized = true →
    ∀ parsed, contract.scan text = some parsed → maxRecordBytes < parsed.span

/-- Decreases with every unfinished call: bytes left, then exhausted rooms. -/
def RawState.debt (raw : RawState) (left : Nat) : Nat :=
  3 * left + (if raw.rooms.1 = 0 then 1 else 0) + (if raw.rooms.2 = 0 then 1 else 0)

theorem RawState.debt_le (raw : RawState) (left : Nat) : raw.debt left ≤ 3 * left + 2 := by
  unfold debt
  split <;> split <;> omega

@[simp] theorem RawState.absorb_consumed (raw : RawState) (maxRecordBytes : Nat)
    (call : RecordCall State) :
    (raw.absorb maxRecordBytes call).consumed = raw.consumed + call.nin := by
  unfold absorb
  split <;> rfl

@[simp] theorem RawState.growOutput_consumed (raw : RawState) (maxRecordBytes : Nat) :
    (raw.growOutput maxRecordBytes).consumed = raw.consumed := by
  unfold growOutput
  split
  · rfl
  · split <;> rfl

@[simp] theorem RawState.growEnds_consumed (raw : RawState) :
    raw.growEnds.consumed = raw.consumed := by
  unfold growEnds
  split <;> rfl

theorem RawState.start_tracks (contract : core.Contract) (maxRecordBytes : Nat)
    (inside : contract.Inside state text 0 [] []) :
    start.Tracks contract maxRecordBytes text state [] [] :=
  ⟨inside, Nat.le_refl _,
    fun _ => ⟨rfl, rfl, Nat.zero_le _, Nat.le_refl _, Nat.zero_le _, Nat.le_refl _⟩,
    fun beyond => False.elim (Bool.false_ne_true beyond)⟩

section Call

variable {contract : core.Contract} {maxRecordBytes : Nat} {text input : List UInt8}
  {raw : RawState} {state : core.State} {output : List UInt8} {ends : List Nat}

/-- An unfinished call keeps the loop invariant. -/
theorem RawState.Tracks.absorb_unfinished
    (tracks : raw.Tracks contract maxRecordBytes text state output ends)
    (feeds : Feeds text raw.consumed input)
    (notRecord : (readRecord core raw state input).result ≠ .record)
    (notEnd : (readRecord core raw state input).result ≠ .atEnd) :
    (raw.absorb maxRecordBytes (readRecord core raw state input)).Tracks contract maxRecordBytes
      text (readRecord core raw state input).state
      (output ++ (readRecord core raw state input).output)
      (ends ++ (readRecord core raw state input).ends) := by
  obtain ⟨inside, perByte, _⟩ :=
    contract.call_unfinished raw.rooms.1 raw.rooms.2 tracks.inside feeds notRecord notEnd
  obtain ⟨_, outputRoom, endsRoom⟩ :=
    contract.call_bounds raw.rooms.1 raw.rooms.2 tracks.inside feeds
  unfold readRecord at notRecord notEnd ⊢
  generalize core.readRecord state input raw.rooms.1 raw.rooms.2 = call at *
  have size := tracks.outputs
  refine ⟨by simpa using inside, by simp; omega, ?_, ?_⟩
  · intro still
    cases beyond : raw.oversized with
    | true => simp [RawState.absorb, beyond] at still
    | false =>
      have kept := tracks.retains beyond
      simp [RawState.rooms, beyond] at outputRoom endsRoom
      simp [RawState.absorb, beyond] at still
      have outputFits := kept.outputFits
      have endsFits := kept.endsFits
      refine ⟨?_, ?_, ?_, ?_, ?_, ?_⟩ <;> simp [RawState.absorb, beyond]
      · exact kept.output
      · exact kept.ends
      · exact still
      · omega
      · exact kept.outputBound
      · omega
  · intro beyond parsed found
    cases before : raw.oversized with
    | true => exact tracks.exceeds before parsed found
    | false =>
      simp [RawState.absorb, before] at beyond
      exact Nat.lt_of_lt_of_le beyond (contract.inside_span inside found)

/-- Growing the output buffer keeps the invariant: a buffer that cannot grow is
as long as the bound, is full, and the record goes on. -/
theorem RawState.Tracks.growOutput
    (tracks : raw.Tracks contract maxRecordBytes text state output ends)
    (full : raw.oversized = false → raw.output.length = raw.outputSize)
    (goesOn : ∀ parsed, contract.scan text = some parsed → raw.consumed < parsed.span) :
    (raw.growOutput maxRecordBytes).Tracks contract maxRecordBytes text state output ends := by
  refine ⟨by simpa using tracks.inside, by simpa using tracks.outputs, ?_, ?_⟩
  · intro still
    cases beyond : raw.oversized with
    | true => simp [RawState.growOutput, beyond] at still
    | false =>
      have kept := tracks.retains beyond
      have outputFits := kept.outputFits
      simp only [RawState.growOutput, beyond, Bool.false_eq_true, if_false] at still ⊢
      split at still
      · simp at still
      · rename_i grows
        rw [if_neg grows]
        refine ⟨kept.output, kept.ends, kept.withinBound, ?_, ?_, kept.endsFits⟩
        · dsimp only
          omega
        · exact Nat.min_le_right _ _
  · intro beyond parsed found
    cases before : raw.oversized with
    | true => exact tracks.exceeds before parsed found
    | false =>
      have kept := tracks.retains before
      have filled := full before
      have longer := goesOn parsed found
      have taken := tracks.outputs
      have bound := kept.outputBound
      rw [← kept.output] at taken
      simp only [RawState.growOutput, before, Bool.false_eq_true, if_false] at beyond
      split at beyond
      · rename_i stuck
        have reached : maxRecordBytes ≤ raw.outputSize := by
          simp only [RawState.grown, initialGrowthBytes] at stuck
          split at stuck <;> omega
        omega
      · simp at beyond

theorem RawState.Tracks.growEnds
    (tracks : raw.Tracks contract maxRecordBytes text state output ends) :
    raw.growEnds.Tracks contract maxRecordBytes text state output ends := by
  refine ⟨by simpa using tracks.inside, by simpa using tracks.outputs, ?_, ?_⟩
  · intro still
    cases beyond : raw.oversized with
    | true => simp [RawState.growEnds, beyond] at still
    | false =>
      have kept := tracks.retains beyond
      have endsFits := kept.endsFits
      refine ⟨?_, ?_, ?_, ?_, ?_, ?_⟩ <;> simp [RawState.growEnds, beyond]
      · exact kept.output
      · exact kept.ends
      · exact kept.withinBound
      · exact kept.outputFits
      · exact kept.outputBound
      · omega
  · intro beyond parsed found
    refine tracks.exceeds ?_ parsed found
    simp only [RawState.growEnds] at beyond
    split at beyond
    · assumption
    · exact beyond

/-- A finished call reports the scanned record. -/
theorem RawState.Tracks.finish_record
    (tracks : raw.Tracks contract maxRecordBytes text state output ends)
    (feeds : Feeds text raw.consumed input)
    (ended : (readRecord core raw state input).result = .record) :
    (raw.absorb maxRecordBytes (readRecord core raw state input)).finish =
        expectedRaw contract maxRecordBytes text ∧
      raw.consumed + (readRecord core raw state input).nin = contract.reach text ∧
      contract.Inside (readRecord core raw state input).state (remainder contract text) 0 [] [] := by
  obtain ⟨scanned, next⟩ :=
    contract.call_record raw.rooms.1 raw.rooms.2 tracks.inside feeds ended
  unfold readRecord at ended ⊢
  generalize core.readRecord state input raw.rooms.1 raw.rooms.2 = call at *
  have reached : contract.reach text = raw.consumed + call.nin := by
    simp [CsvCore.Contract.reach, scanned]
  refine ⟨?_, reached.symm, by rwa [remainder, reached]⟩
  cases beyond : raw.oversized with
  | true =>
    have longer := tracks.exceeds beyond _ scanned
    simp only at longer
    simp [RawState.finish, RawState.absorb, beyond, expectedRaw, scanned, longer]
  | false =>
    have kept := tracks.retains beyond
    by_cases longer : maxRecordBytes < raw.consumed + call.nin
    · simp [RawState.finish, RawState.absorb, beyond, expectedRaw, scanned, longer]
    · simp [RawState.finish, RawState.absorb, beyond, expectedRaw, scanned, longer,
        kept.output, kept.ends]

theorem RawState.debt_of_taken (next raw : RawState) (taken : 0 < nin) (within : nin ≤ left) :
    next.debt (left - nin) < raw.debt left := by
  have upper := next.debt_le (left - nin)
  have lower : 3 * left ≤ raw.debt left := by
    unfold RawState.debt
    omega
  omega

/-- A call that takes no byte and writes nothing changes no loop variable. -/
private theorem absorb_nothing (tracks : raw.Tracks contract maxRecordBytes text state output ends)
    (call : RecordCall core.State) (nothing : call.nin = 0) (noOutput : call.output = [])
    (noEnds : call.ends = []) (retained : raw.oversized = false) :
    raw.absorb maxRecordBytes call = raw := by
  have within := (tracks.retains retained).withinBound
  cases raw
  simp_all [RawState.absorb]

theorem RawState.Tracks.debt_growOutput
    (tracks : raw.Tracks contract maxRecordBytes text state output ends)
    (exhausted : raw.rooms.1 = 0) (left : Nat) :
    (raw.growOutput maxRecordBytes).debt left < raw.debt left := by
  cases beyond : raw.oversized with
  | true => simp [RawState.rooms, beyond, discardOutputBytes] at exhausted
  | false =>
    have kept := tracks.retains beyond
    have fits := kept.outputFits
    simp only [RawState.rooms, beyond, Bool.false_eq_true, if_false] at exhausted
    by_cases stuck : RawState.grown raw.outputSize maxRecordBytes ≤ raw.outputSize
    · simp [RawState.debt, RawState.growOutput, RawState.rooms, beyond, stuck, exhausted,
        discardOutputBytes, discardEndsLen]
      omega
    · have opened : RawState.grown raw.outputSize maxRecordBytes - raw.output.length ≠ 0 := by
        omega
      simp [RawState.debt, RawState.growOutput, RawState.rooms, beyond, stuck, exhausted, opened]

theorem RawState.Tracks.debt_growEnds
    (tracks : raw.Tracks contract maxRecordBytes text state output ends)
    (exhausted : raw.rooms.2 = 0) (left : Nat) :
    raw.growEnds.debt left < raw.debt left := by
  cases beyond : raw.oversized with
  | true => simp [RawState.rooms, beyond, discardEndsLen] at exhausted
  | false =>
    have fits := (tracks.retains beyond).endsFits
    simp only [RawState.rooms, beyond, Bool.false_eq_true, if_false] at exhausted
    have opened : max raw.endsSize 16 * 2 - raw.ends.length ≠ 0 := by omega
    simp [RawState.debt, RawState.growEnds, RawState.rooms, beyond, exhausted, opened]

/-- One unfinished iteration: the invariant holds for the next loop variables and
the debt has decreased. -/
theorem RawState.Tracks.next
    (tracks : raw.Tracks contract maxRecordBytes text state output ends)
    (feeds : Feeds text raw.consumed input) (within : input.length ≤ left) :
    let call := readRecord core raw state input
    let absorbed := raw.absorb maxRecordBytes call
    (call.result = .inputEmpty →
      absorbed.Tracks contract maxRecordBytes text call.state (output ++ call.output)
        (ends ++ call.ends) ∧ absorbed.debt (left - call.nin) < raw.debt left) ∧
    (call.result = .outputFull →
      (absorbed.growOutput maxRecordBytes).Tracks contract maxRecordBytes text call.state
        (output ++ call.output) (ends ++ call.ends) ∧
      (absorbed.growOutput maxRecordBytes).debt (left - call.nin) < raw.debt left) ∧
    (call.result = .outputEndsFull →
      absorbed.growEnds.Tracks contract maxRecordBytes text call.state (output ++ call.output)
        (ends ++ call.ends) ∧ absorbed.growEnds.debt (left - call.nin) < raw.debt left) := by
  intro call absorbed
  obtain ⟨taken, _, _⟩ := contract.call_bounds raw.rooms.1 raw.rooms.2 tracks.inside feeds
  change call.nin ≤ input.length at taken
  have kept : call.result ≠ .record → call.result ≠ .atEnd → absorbed.Tracks contract
      maxRecordBytes text call.state (output ++ call.output) (ends ++ call.ends) :=
    tracks.absorb_unfinished feeds
  refine ⟨fun asks => ?_, fun asks => ?_, fun asks => ?_⟩
  · obtain ⟨some, all⟩ :=
      contract.call_inputEmpty raw.rooms.1 raw.rooms.2 tracks.inside feeds asks
    change call.nin = input.length at all
    have positive : 0 < call.nin := all ▸ List.length_pos_iff.mpr some
    exact ⟨kept (by simp [asks]) (by simp [asks]), RawState.debt_of_taken _ _ positive (by omega)⟩
  · obtain ⟨full, goesOn⟩ :=
      contract.call_outputFull raw.rooms.1 raw.rooms.2 tracks.inside feeds asks
    change call.output.length = raw.rooms.1 at full
    have settled := kept (by simp [asks]) (by simp [asks])
    obtain ⟨_, outputPerByte, endsPerByte⟩ := contract.call_unfinished raw.rooms.1 raw.rooms.2
      tracks.inside feeds (by simp [call, readRecord] at asks; simp [asks])
      (by simp [call, readRecord] at asks; simp [asks])
    change call.output.length ≤ call.nin at outputPerByte
    change call.ends.length ≤ call.nin at endsPerByte
    refine ⟨settled.growOutput ?_ ?_, ?_⟩
    · intro still
      cases beyond : raw.oversized with
      | true => simp [absorbed, RawState.absorb, beyond] at still
      | false =>
        have fits := (tracks.retains beyond).outputFits
        simp only [RawState.rooms, beyond, Bool.false_eq_true, if_false] at full
        simp [absorbed, RawState.absorb, beyond]
        omega
    · intro parsed found
      rw [RawState.absorb_consumed]
      exact goesOn parsed found
    · rcases Nat.eq_zero_or_pos call.nin with none | some
      · have exhausted : raw.rooms.1 = 0 := by omega
        have retained : raw.oversized = false := by
          cases beyond : raw.oversized with
          | true => simp [RawState.rooms, beyond, discardOutputBytes] at exhausted
          | false => rfl
        have same : absorbed = raw := absorb_nothing tracks call none
          (List.length_eq_zero_iff.mp (by omega)) (List.length_eq_zero_iff.mp (by omega)) retained
        rw [same, none]
        exact tracks.debt_growOutput exhausted _
      · exact RawState.debt_of_taken _ _ some (by omega)
  · have full := contract.call_outputEndsFull raw.rooms.1 raw.rooms.2 tracks.inside feeds asks
    change call.ends.length = raw.rooms.2 at full
    obtain ⟨_, outputPerByte, endsPerByte⟩ := contract.call_unfinished raw.rooms.1 raw.rooms.2
      tracks.inside feeds (by simp [call, readRecord] at asks; simp [asks])
      (by simp [call, readRecord] at asks; simp [asks])
    change call.output.length ≤ call.nin at outputPerByte
    change call.ends.length ≤ call.nin at endsPerByte
    refine ⟨(kept (by simp [asks]) (by simp [asks])).growEnds, ?_⟩
    rcases Nat.eq_zero_or_pos call.nin with none | some
    · have exhausted : raw.rooms.2 = 0 := by omega
      have retained : raw.oversized = false := by
        cases beyond : raw.oversized with
        | true => simp [RawState.rooms, beyond, discardEndsLen] at exhausted
        | false => rfl
      have same : absorbed = raw := absorb_nothing tracks call none
        (List.length_eq_zero_iff.mp (by omega)) (List.length_eq_zero_iff.mp (by omega)) retained
      rw [same, none]
      exact tracks.debt_growEnds exhausted _
    · exact RawState.debt_of_taken _ _ some (by omega)

end Call

/-- A source inside the text of the current record. -/
structure StandsIn (source : Source) (text : List UInt8) (base consumed : Nat) : Prop where
  rest : source.rest = text.drop consumed
  cursor : source.cursor = base + consumed
  within : consumed ≤ text.length

/-- A raw read that began at byte `base` failed together with some I/O call, or
reports the record that starts `text` and stops at its boundary. -/
def RawAnswers (contract : core.Contract) (maxRecordBytes : Nat) (text : List UInt8) (base : Nat)
    (source : Source) (answer : Option RawRecord × core.State × Source) : Prop :=
  (answer.1 = none ∧ source.Follows answer.2.2 ∧ source.FailedBetween answer.2.2) ∨
  (answer.1 = some (expectedRaw contract maxRecordBytes text) ∧ source.Follows answer.2.2 ∧
    answer.2.2.cursor = base + contract.reach text ∧
    contract.Inside answer.2.1 (remainder contract text) 0 [] [])

theorem RawAnswers.widen {contract : core.Contract} (first : source.Follows middle)
    (answers : RawAnswers contract maxRecordBytes text base middle answer) :
    RawAnswers contract maxRecordBytes text base source answer := by
  rcases answers with ⟨none, later, failed⟩ | ⟨some, later, rest⟩
  · exact .inl ⟨none, first.trans later, failed.widen first⟩
  · exact .inr ⟨some, first.trans later, rest⟩

/-- What a served call offers is read where the source stands, and taking some of it
moves the source on by as much. -/
theorem StandsIn.offers (stands : StandsIn source text base consumed)
    (served : source.fillBuf = (some input, after)) :
    source.Follows after ∧ Feeds text consumed input ∧ input.length ≤ text.length - consumed ∧
      ∀ nin ≤ input.length, StandsIn (after.consume nin) text base (consumed + nin) := by
  rcases source.fillBuf_cases with
    ⟨later, failed, _, _⟩ | ⟨later, extra, found, follows, kept⟩
  · rw [failed] at served
    cases served
  rw [found] at served
  obtain ⟨offered, same⟩ := Prod.mk.inj served
  cases same
  replace offered := Option.some.inj offered
  have feeds : Feeds text consumed input := by
    rw [← offered, stands.rest]
    exact ⟨List.take_prefix _ _, fun empty => by simpa using empty⟩
  have room : input.length ≤ text.length - consumed := by
    have bound := feeds.ofText.length_le
    rwa [List.length_drop] at bound
  have same : after.rest = source.rest := by rw [Source.rest, follows.bytes, kept]; rfl
  have within := stands.within
  refine ⟨follows, feeds, room, fun nin taken => ⟨?_, ?_, by omega⟩⟩
  · rw [Source.consume_rest, same, stands.rest, List.drop_drop]
  · rw [Source.consume_cursor, kept, stands.cursor, Nat.add_assoc]

theorem rawLoop_answers (contract : core.Contract) (maxRecordBytes fuel : Nat) {raw : RawState}
    {state : core.State} {source : Source}
    (tracks : raw.Tracks contract maxRecordBytes text state output ends)
    (stands : StandsIn source text base raw.consumed)
    (enough : raw.debt (text.length - raw.consumed) < fuel) :
    RawAnswers contract maxRecordBytes text base source
      (rawLoop core maxRecordBytes fuel raw state source) := by
  induction fuel generalizing raw state source output ends with
  | zero => omega
  | succ fuel ih =>
    rcases source.fillBuf_cases with
      ⟨after, served, follows, failed⟩ | ⟨after, extra, served, _, _⟩
    · refine .inl ⟨?_, ?_⟩
      · simp [rawLoop, served]
      · simpa [rawLoop, served] using And.intro follows failed
    obtain ⟨input, offered⟩ : ∃ input, source.rest.take (extra + 1) = input := ⟨_, rfl⟩
    rw [offered] at served
    obtain ⟨follows, feeds, room, standing⟩ := stands.offers served
    have taken : (readRecord core raw state input).nin ≤ input.length :=
      (contract.call_bounds raw.rooms.1 raw.rooms.2 tracks.inside feeds).1
    obtain ⟨onInput, onOutput, onEnds⟩ := tracks.next feeds room
    have onward := follows.trans (after.consume_follows (readRecord core raw state input).nin)
    have stands' := standing _ taken
    -- every unfinished answer continues with less debt
    have continues : ∀ {next : RawState} {output' ends'},
        next.Tracks contract maxRecordBytes text (readRecord core raw state input).state
          output' ends' →
        next.consumed = raw.consumed + (readRecord core raw state input).nin →
        next.debt (text.length - raw.consumed - (readRecord core raw state input).nin) <
          raw.debt (text.length - raw.consumed) →
        RawAnswers contract maxRecordBytes text base source
          (rawLoop core maxRecordBytes fuel next (readRecord core raw state input).state
            (after.consume (readRecord core raw state input).nin)) := by
      intro next output' ends' tracked same less
      refine RawAnswers.widen onward (ih tracked (same ▸ stands') ?_)
      rw [same, ← Nat.sub_sub]
      omega
    cases answer : (readRecord core raw state input).result with
    | inputEmpty =>
      obtain ⟨tracked, less⟩ := onInput answer
      simpa only [rawLoop, served, answer] using continues tracked (by simp) less
    | outputFull =>
      obtain ⟨tracked, less⟩ := onOutput answer
      simpa only [rawLoop, served, answer] using continues tracked (by simp) less
    | outputEndsFull =>
      obtain ⟨tracked, less⟩ := onEnds answer
      simpa only [rawLoop, served, answer] using continues tracked (by simp) less
    | record =>
      obtain ⟨reported, reached, inside⟩ := tracks.finish_record feeds answer
      simp only [rawLoop, served, answer, reported]
      refine .inr ⟨rfl, onward, ?_, inside⟩
      rw [stands'.cursor, reached]
    | atEnd =>
      obtain ⟨nothing, whole, inside⟩ :=
        contract.call_atEnd raw.rooms.1 raw.rooms.2 tracks.inside feeds answer
      have reached : contract.reach text = text.length := by
        simp [CsvCore.Contract.reach, nothing]
      simp only [rawLoop, served, answer]
      refine .inr ⟨by simp only [expectedRaw, nothing], onward, ?_, ?_⟩
      · rw [stands'.cursor, reached, ← whole]
        rfl
      · rw [remainder, reached, List.drop_length]
        exact inside

/-- One raw record read from a record boundary. -/
theorem readRawRecord_answers (contract : core.Contract) (maxRecordBytes : Nat)
    {state : core.State} {source : Source} (inside : contract.Inside state source.rest 0 [] []) :
    RawAnswers contract maxRecordBytes source.rest source.cursor source
      (readRawRecord core maxRecordBytes state source) := by
  refine rawLoop_answers contract maxRecordBytes _ (RawState.start_tracks contract _ inside)
    ⟨rfl, rfl, Nat.zero_le _⟩ ?_
  exact Nat.lt_succ_of_le (RawState.debt_le _ _)

end OxideBatch.Item.Delimited
