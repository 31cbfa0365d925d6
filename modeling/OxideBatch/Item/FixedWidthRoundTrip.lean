import OxideBatch.Item.FileWriterSpec
import OxideBatch.Item.FixedWidthLines
import OxideBatch.Lib.Utf8

/-! What the fixed-width writer has written, read back by the fixed-width reader: the same
records, unless the bytes of one of them pass for a terminator. -/

namespace OxideBatch.Item.FixedWidth

open OxideBatch.Core Triple
open OxideBatch.Item.Delimited (malformed fromUtf8)
open OxideBatch.Item.JsonLines (lf cr firstLine boundary line_cases dropTerminatorCr
  dropTerminatorCr_of_not_last firstLine_terminated)

section Record

/-- The bytes of a record before its terminator. -/
def recordBytes (fields : List String) : List UInt8 := fields.flatMap (·.toUTF8.toList)

/-- The terminator behind the record is the first one in its line: no field holds a `\n`,
and none ends the record in a `\r` that a `\n` behind it would take along. -/
def Framed (terminator : Terminator) (fields : List String) : Prop :=
  lf ∉ recordBytes fields ∧ (terminator = .lf → (recordBytes fields).getLast? ≠ some cr)

/-- The fields that the writer accepts are the spans of their bytes. -/
private theorem encodeFields_ok {fields : List String} {declared : List Field}
    {encoded : List UInt8}
    (accepted : encodeFields fields declared = some encoded) :
    encoded = recordBytes fields ∧ encoded.length = (declared.map Field.width).sum ∧
      (spans encoded declared).mapM fromUtf8 = some fields := by
  induction fields generalizing declared encoded with
  | nil =>
    cases declared with
    | nil =>
      cases accepted
      exact ⟨rfl, rfl, rfl⟩
    | cons field declared => cases accepted
  | cons text fields ih =>
    cases declared with
    | nil => cases accepted
    | cons field declared =>
      rw [encodeFields] at accepted
      split at accepted
      · cases accepted
      · next sized =>
        obtain ⟨later, encodedLater, rfl⟩ := Option.map_eq_some_iff.mp accepted
        obtain ⟨rfl, width, decoded⟩ := ih encodedLater
        have long : text.toUTF8.toList.length = field.width :=
          (Lib.length_utf8 text).trans (not_not.mp sized)
        have first : fromUtf8 text.toUTF8.toList = some text := Lib.fromUTF8?_toUTF8 text
        refine ⟨rfl, ?_, ?_⟩
        · rw [List.length_append, long, width, List.map_cons, List.sum_cons]
        · rw [spans, ← long, List.take_left, List.drop_left, List.mapM_cons, first, decoded]
          rfl

variable {layout : Layout} {fields : List String} {encoded rest : List UInt8}

private theorem lineOutcome_accepted (accepted : encodeFields fields layout.fields = some encoded)
    (fits : layout.recordWidth ≤ layout.maxRecordBytes) :
    lineOutcome layout encoded = .ok (.item ⟨fields, layout.names⟩) := by
  obtain ⟨_, width, decoded⟩ := encodeFields_ok accepted
  have sized : encoded.length = layout.recordWidth := width
  rw [lineOutcome, if_pos ⟨sized, sized.le.trans fits⟩, decoded]

private theorem lineOutcome_short {line : List UInt8} (short : line.length < layout.recordWidth) :
    lineOutcome layout line = .error malformed :=
  if_neg fun both => absurd both.1 short.ne

/-- A framed record is the first line of what is written from it on. -/
private theorem firstLine_framed {terminator : Terminator} (framed : Framed terminator fields) :
    firstLine (recordBytes fields ++ terminator.bytes ++ rest) =
      (recordBytes fields, (recordBytes fields ++ terminator.bytes).length) := by
  obtain ⟨clear, closed⟩ := framed
  have noLf : ∀ byte ∈ recordBytes fields, byte ≠ lf := fun byte member same =>
    clear (same ▸ member)
  cases terminator with
  | lf =>
    have shape : recordBytes fields ++ Terminator.lf.bytes ++ rest =
        recordBytes fields ++ lf :: rest := by simp [Terminator.bytes, lf]
    rw [shape, firstLine_terminated noLf, dropTerminatorCr_of_not_last (closed rfl)]
    simp [Terminator.bytes]
  | crLf =>
    have shape : recordBytes fields ++ Terminator.crLf.bytes ++ rest =
        (recordBytes fields ++ [cr]) ++ lf :: rest := by simp [Terminator.bytes, lf, cr]
    have noLf' : ∀ byte ∈ recordBytes fields ++ [cr], byte ≠ lf :=
      List.forall_mem_append.mpr ⟨noLf, by simp [lf, cr]⟩
    rw [shape, firstLine_terminated noLf']
    simp [dropTerminatorCr, Terminator.bytes]

private theorem length_dropTerminatorCr_le (body : List UInt8) :
    (dropTerminatorCr body).length ≤ body.length := by
  unfold dropTerminatorCr
  split
  · exact body.dropLast_sublist.length_le
  · exact Nat.le_refl _

/-- The first line of a record that is not framed is shorter than the record. -/
private theorem firstLine_unframed {terminator : Terminator}
    (unframed : ¬ Framed terminator fields) :
    (firstLine (recordBytes fields ++ terminator.bytes ++ rest)).1.length <
      (recordBytes fields).length := by
  rcases line_cases (recordBytes fields) with noLf | ⟨body, later, split, noLf⟩
  · have clear : lf ∉ recordBytes fields := fun member => noLf lf member rfl
    have merged : terminator = .lf ∧ (recordBytes fields).getLast? = some cr := by
      by_contra apart
      exact unframed ⟨clear, fun same last => apart ⟨same, last⟩⟩
    obtain ⟨rfl, last⟩ := merged
    have shape : recordBytes fields ++ Terminator.lf.bytes ++ rest =
        recordBytes fields ++ lf :: rest := by simp [Terminator.bytes, lf]
    obtain ⟨front, same⟩ := List.getLast?_eq_some_iff.mp last
    rw [shape, firstLine_terminated noLf, same]
    simp [dropTerminatorCr]
  · have shape : recordBytes fields ++ terminator.bytes ++ rest =
        body ++ lf :: (later ++ terminator.bytes ++ rest) := by simp [split]
    have within := length_dropTerminatorCr_le body
    rw [shape, firstLine_terminated noLf, split, List.length_append, List.length_cons]
    simp only
    omega

end Record

section Batch

variable {layout : Layout} {items : List FixedWidthRecord} {encoded : List UInt8}

/-- The outcome of read call `index` that gives the written records back: their fields in
order, under the names of the layout, and then the end of input. -/
def givenBack (layout : Layout) (items : List FixedWidthRecord) (index : Nat) : Outcome :=
  (items[index]?.map fun record => .ok (.item ⟨record.fields, layout.names⟩)).getD
    (.ok .endOfInput)

private theorem length_terminator_pos (terminator : Terminator) : 0 < terminator.bytes.length := by
  cases terminator <;> exact Nat.succ_pos _

/-- The lines of an encoded batch are its records exactly when all of them are framed. -/
private theorem lineSpec_encoded_iff (accepted : encodeRecords layout items = some encoded)
    (fits : layout.recordWidth ≤ layout.maxRecordBytes) :
    (∀ index, lineSpec layout encoded index = givenBack layout items index) ↔
      ∀ record ∈ items, Framed layout.terminator record.fields := by
  induction items generalizing encoded with
  | nil =>
    cases accepted
    simp [lineSpec_nil, givenBack]
  | cons record items ih =>
    obtain ⟨front, encodedFirst, later⟩ := Option.bind_eq_some_iff.mp accepted
    obtain ⟨rest, encodedRest, joined⟩ := Option.bind_eq_some_iff.mp later
    cases joined
    have item := lineOutcome_accepted encodedFirst fits
    obtain ⟨rfl, width, _⟩ := encodeFields_ok encodedFirst
    have sized : (recordBytes record.fields).length = layout.recordWidth := width
    have nonempty : recordBytes record.fields ++ layout.terminator.bytes ++ rest ≠ [] := by
      have some := length_terminator_pos layout.terminator
      intro empty
      have size := congrArg List.length empty
      simp only [List.length_append, List.length_nil] at size
      omega
    rw [List.forall_mem_cons]
    by_cases framed : Framed layout.terminator record.fields
    · -- the record is read as its own line, and the lines behind it are the other records
      have line := @firstLine_framed record.fields rest layout.terminator framed
      have first :
          lineSpec layout (recordBytes record.fields ++ layout.terminator.bytes ++ rest) 0 =
          givenBack layout (record :: items) 0 := by
        rw [lineSpec_zero layout nonempty, line, item]
        rfl
      have behind : ∀ index,
          lineSpec layout (recordBytes record.fields ++ layout.terminator.bytes ++ rest)
            (index + 1) = lineSpec layout rest index := by
        intro index
        rw [lineSpec_succ layout nonempty, line, List.drop_left]
      constructor
      · exact fun same => ⟨framed, (ih encodedRest).mp fun index => by
          rw [← behind, same (index + 1)]
          rfl⟩
      · rintro ⟨_, others⟩ index
        cases index with
        | zero => exact first
        | succ index => exact (behind index).trans ((ih encodedRest).mpr others index)
    · constructor
      · intro same
        have short := @firstLine_unframed record.fields rest layout.terminator framed
        rw [sized] at short
        have wrong := same 0
        rw [lineSpec_zero layout nonempty, lineOutcome_short short] at wrong
        cases wrong
      · exact fun both => absurd both.1 framed

end Batch

section Written

variable {layout : Layout} {items : List FixedWidthRecord} {stopRequested : Bool}
  {state state' : WriterState}

/-- The bytes between the cursors of two states of one file, as the later one has them. -/
def written (before after : WriterState) : List UInt8 :=
  (after.file.bytes.drop before.file.cursor).take (after.file.cursor - before.file.cursor)

/-- Committing the position leaves bytes and cursor alone. -/
private theorem commitPosition_keeps (items : Nat) (file : OutputFile) :
    Ends (fun state : WriterState => state.file.bytes = file.bytes ∧
        state.file.cursor = file.cursor) (commitPosition items)
      (fun _ state => state.file.bytes = file.bytes ∧ state.file.cursor = file.cursor)
      (fun _ _ => True) := by
  unfold commitPosition
  refine Ends.bind (fun _ state => state.file.bytes = file.bytes ∧
    state.file.cursor = file.cursor) (answer_ends (fun _ same => same) fun _ _ => trivial)
    fun _ => ?_
  refine Ends.bind (fun _ state => state.file.bytes = file.bytes ∧
    state.file.cursor = file.cursor) (answer_ends (fun _ same => same) fun _ _ => trivial) ?_
  intro candidate
  exact Ends.bind (fun _ state => state.file.bytes = file.bytes ∧
    state.file.cursor = file.cursor) (Ends.modify fun _ same => same) fun _ =>
      Ends.pure fun _ same => same

/-- What is put at the cursor stands between the cursor before and the cursor after. -/
private theorem put_between (file : OutputFile) (data : List UInt8) :
    ((file.put data).bytes.drop file.cursor).take ((file.put data).cursor - file.cursor) =
      data := by
  unfold OutputFile.put
  split
  · next empty => simp [empty]
  · have padded : ((file.bytes ++ List.replicate (file.cursor - file.bytes.length) 0).take
        file.cursor).length = file.cursor := by
      rw [List.length_take, List.length_append, List.length_replicate]
      omega
    rw [List.append_assoc, List.drop_left' padded, Nat.add_sub_cancel_left, List.take_left]

/-- A write that reports its batch as written has put the encoded records in the file. -/
private theorem written_encoded
    (wrote : runs (FixedWidthWriter.write layout items stopRequested) state =
      (.ok .written, state')) :
    encodeRecords layout items = some (written state state') := by
  unfold FixedWidthWriter.write writeBuffer at wrote
  split at wrote
  · cases wrote
  cases encoded : encodeRecords layout items with
  | none =>
    rw [encoded] at wrote
    cases wrote
  | some buffer =>
    rw [encoded] at wrote
    simp only [runs_bind] at wrote
    have kept := commitPosition_keeps 0 (state.file.put buffer)
    cases planned : state.file.plan state.file.calls with
    | some partly =>
      simp only [runs, call, ExceptT.run, OutputFile.writeAll, planned] at wrote
      cases wrote
    | none =>
      simp only [runs, call, ExceptT.run, OutputFile.writeAll, planned] at wrote
      have left := kept { state with file := (state.file.put buffer).counted } ⟨rfl, rfl⟩
      rw [runs, ExceptT.run, wrote] at left
      obtain ⟨bytes, cursor⟩ := left
      rw [written, bytes, cursor, put_between]

/-- Read without faults in the given chunks, the bytes give the records back. -/
def ReadsBack (layout : Layout) (items : List FixedWidthRecord) (bytes : List UInt8)
    (chunks : Nat → Nat) : Prop :=
  ∀ count, (Reader.opened layout bytes (steady chunks) none).outcomes count =
    (List.range count).map (givenBack layout items)

/-- A line of the declared width leaves room under the bound for its terminator. -/
private theorem not_lineAtBound (roomy : layout.recordWidth < layout.maxRecordBytes)
    (bytes : List UInt8) :
    ¬ LineAtBound layout bytes := by
  rintro ⟨_, _, _, _, line, rest, _, _, _, full, _⟩
  exact absurd full roomy.ne

/-- Written records are read back exactly when the terminator the writer puts behind each of
them is the first one in its line. -/
theorem written_reads_back_iff (chunks : Nat → Nat)
    (fits : layout.recordWidth + layout.terminator.bytes.length ≤ layout.maxRecordBytes)
    (wrote : runs (FixedWidthWriter.write layout items stopRequested) state =
      (.ok .written, state')) :
    ReadsBack layout items (written state state') chunks ↔
      ∀ record ∈ items, Framed layout.terminator record.fields := by
  have some := length_terminator_pos layout.terminator
  have reads := (@outcomes_lineSpec_iff layout (written state state') chunks).mpr
    (not_lineAtBound (by omega) _)
  rw [← lineSpec_encoded_iff (written_encoded wrote) (by omega)]
  constructor
  · intro back index
    have same := (reads (index + 1)).symm.trans (back (index + 1))
    exact List.map_inj_left.mp same index (List.mem_range.mpr index.lt_succ_self)
  · intro same count
    rw [reads, List.map_inj_left]
    exact fun index _ => same index

/-- A file that is still empty and that no call will fail on. -/
def freshFile : WriterState := ⟨⟨[], 0, fun _ => none, 0⟩, 0, 0⟩

/-- Two bytes behind which the writer puts the given terminator. -/
def pairOf (terminator : Terminator) : Layout :=
  ⟨[⟨none, 2⟩], terminator, 4, pairLayout.nonempty, pairLayout.summed⟩

private theorem utf8_pair : "ab".toUTF8.toList = [97, 98] := by
  rw [Lib.toList_eq]
  decide +kernel

private theorem utf8_other : "cd".toUTF8.toList = [99, 100] := by
  rw [Lib.toList_eq]
  decide +kernel

private theorem utf8_return : "a\r".toUTF8.toList = [97, 13] := by
  rw [Lib.toList_eq]
  decide +kernel

theorem written_reads_back_pair :
    ∃ state', runs (FixedWidthWriter.write (pairOf .crLf) [⟨["ab"], none⟩, ⟨["cd"], none⟩] false)
        freshFile = (.ok .written, state') ∧
      ReadsBack (pairOf .crLf) [⟨["ab"], none⟩, ⟨["cd"], none⟩] (written freshFile state')
        fun _ => 0 := by
  have wrote : ∃ state', runs (FixedWidthWriter.write (pairOf .crLf)
      [⟨["ab"], none⟩, ⟨["cd"], none⟩] false) freshFile = (.ok .written, state') := by
    simp only [FixedWidthWriter.write, encodeRecords, encodeFields, pairOf, utf8_pair, utf8_other]
    exact ⟨_, rfl⟩
  obtain ⟨state', wrote⟩ := wrote
  refine ⟨state', wrote, (written_reads_back_iff _ (by decide) wrote).mpr ?_⟩
  have bytes : recordBytes ["ab"] = [97, 98] := by
    rw [recordBytes, List.flatMap_singleton, utf8_pair]
  have bytes' : recordBytes ["cd"] = [99, 100] := by
    rw [recordBytes, List.flatMap_singleton, utf8_other]
  simp [Framed, bytes, bytes', lf, pairOf]

/-- A record that ends in `\r` is written before a bare `\n`, and the reader takes both for
the terminator. -/
theorem carriage_return_is_lost :
    (pairOf .lf).recordWidth + Terminator.lf.bytes.length ≤ (pairOf .lf).maxRecordBytes ∧
    ∃ state', runs (FixedWidthWriter.write (pairOf .lf) [⟨["a\r"], none⟩] false) freshFile =
        (.ok .written, state') ∧
      ¬ ReadsBack (pairOf .lf) [⟨["a\r"], none⟩] (written freshFile state') fun _ => 0 := by
  have encoded : encodeRecords (pairOf .lf) [⟨["a\r"], none⟩] = some [97, 13, 10] := by
    simp only [encodeRecords, encodeFields, pairOf, utf8_return]
    rfl
  have wrote : ∃ state', runs (FixedWidthWriter.write (pairOf .lf) [⟨["a\r"], none⟩] false)
      freshFile = (.ok .written, state') := by
    rw [FixedWidthWriter.write, encoded]
    exact ⟨_, rfl⟩
  obtain ⟨state', wrote⟩ := wrote
  refine ⟨by decide, state', wrote, fun back => ?_⟩
  have bytes := (written_encoded wrote).symm.trans encoded
  rw [Option.some_inj] at bytes
  rw [bytes] at back
  exact absurd (back 1) (by decide)

end Written

end OxideBatch.Item.FixedWidth
