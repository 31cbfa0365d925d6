import OxideBatch.Item.FileWriters

/-! What each file writer promises for one call: a write appends the text of its batch
or a part of it, an open leaves exactly the committed text. -/

namespace OxideBatch.Item

open OxideBatch.Core Triple

/-- The file holds the text of `history` and `part` after it, of which the text is
committed. -/
def Carries {Item : Type} (text : List (List Item) → List UInt8) (count : List (List Item) → Nat)
    (history : List (List Item)) (part : List UInt8) (state : WriterState) : Prop :=
  Holds (text history ++ part) (text history).length (count history) state

/-- The calls of a writer, over the text of the batches it has written. -/
structure Exact {Item Position : Type} (writer : FileWriter Item Position)
    (text : List (List Item) → List UInt8) (count : List (List Item) → Nat)
    (position : List (List Item) → Position) (closing : List UInt8) : Prop where
  grows : ∀ history batch, text history <+: text (history ++ [batch])
  write : ∀ history items stopRequested, Ends (Carries text count history [])
    (writer.write items stopRequested)
    (fun outcome state => outcome = .stopped ∧ Carries text count history [] state ∨
      outcome = .written ∧ Carries text count (history ++ [items]) [] state)
    (fun _ state => ∃ part, Carries text count history part state)
  initial : ∀ bytes, Ends (fun state => state.file.bytes = bytes ∧ state.committedItems = 0)
    (writer.openStream none) (fun _ => Carries text count [] [])
    (fun _ state => state.file.bytes = bytes ∨ state.file.bytes <+: text [])
  restored : ∀ history bytes, text history <+: bytes ∨ bytes.length < (text history).length →
    Ends (fun state => state.file.bytes = bytes ∧ state.committedItems = 0)
      (writer.openStream (some (position history))) (fun _ => Carries text count history [])
      (fun _ state => state.file.bytes = bytes ∨ state.file.bytes = text history)
  update : ∀ history part state, Carries text count history part state →
    writer.update state = position history
  closes : ∀ history outcome, Ends (Carries text count history []) (writer.close outcome)
    (fun _ state => state.committedBytes = (text history).length ∧ state.file.bytes =
      text history ++ if outcome = .committed then closing else [])
    (fun _ state => text history <+: state.file.bytes)
  abandons : ∀ history part outcome, outcome ≠ .committed ∨ closing = [] →
    Ends (Carries text count history part) (writer.close outcome)
      (fun _ state => state.committedBytes = (text history).length ∧
        state.file.bytes = text history ++ part)
      (fun _ state => text history <+: state.file.bytes)

section Open

/-- The file is cut back to the text it starts with, or is too short for it. -/
private theorem reconcile_ends {kept bytes : List UInt8}
    (starts : kept <+: bytes ∨ bytes.length < kept.length) :
    Ends (fun state => state.file.bytes = bytes ∧ state.committedItems = 0)
      (reconcile kept.length)
      (fun _ state => state.file.bytes = kept ∧ state.committedItems = 0)
      (fun _ state => state.file.bytes = bytes ∨ state.file.bytes = kept) := by
  unfold reconcile
  refine Ends.bind (fun size state => size = bytes.length ∧ state.file.bytes = bytes ∧
    state.committedItems = 0) ?_ ?_
  · refine answer_ends (fun state holds => ⟨?_, holds⟩) fun state holds => .inl holds.1
    rw [holds.1]
  · intro size
    refine Ends.ite (fun short => Ends.throw fun state holds => .inl holds.2.1) fun enough => ?_
    refine Ends.ite (fun different => ?_) fun same => ?_
    · refine answer_ends ?_ fun state holds => .inl holds.2.1
      rintro state ⟨rfl, content, items⟩
      have cut : bytes.take kept.length = kept := by
        rcases starts with starts | short
        · exact (List.prefix_iff_eq_take.mp starts).symm
        · exact absurd short enough
      refine ⟨?_, items⟩
      change state.file.bytes.take kept.length ++
        List.replicate (kept.length - state.file.bytes.length) 0 = kept
      rw [content, cut, Nat.sub_eq_zero_of_le (Nat.not_lt.mp enough), List.replicate_zero,
        List.append_nil]
    · refine Ends.pure ?_
      rintro state ⟨rfl, content, items⟩
      rcases starts with starts | short
      · have lengths : kept.length = bytes.length := (not_not.mp same).symm
        exact ⟨content.trans (starts.eq_of_length lengths).symm, items⟩
      · exact absurd short enough

/-- Streams of the committed length open at the text that the length stands for. -/
private theorem openLength_ends {kept bytes : List UInt8} (inherited : Option Nat)
    (target : inherited.getD 0 = kept.length)
    (starts : kept <+: bytes ∨ bytes.length < kept.length) :
    Ends (fun state => state.file.bytes = bytes ∧ state.committedItems = 0) (openLength inherited)
      (fun _ => Holds kept kept.length 0)
      (fun _ state => state.file.bytes = bytes ∨ state.file.bytes = kept) := by
  unfold openLength
  dsimp only
  rw [target]
  refine Ends.bind _ (reconcile_ends starts) fun _ => ?_
  refine Ends.bind (fun _ state => state.file.bytes = kept ∧ state.file.cursor = kept.length ∧
    state.committedItems = 0) ?_ fun _ => ?_
  · exact answer_ends (fun state holds => ⟨holds.1, rfl, holds.2⟩) fun state holds => .inr holds.1
  · refine Ends.bind (fun _ => Holds kept kept.length 0) ?_ fun _ => Ends.pure fun _ holds => holds
    exact Ends.modify fun state holds => ⟨holds.1, holds.2.1, rfl, holds.2.2⟩

end Open

section Length

variable {Item : Type}

/-- The text of batches that are encoded one by one. -/
def batchText (encode : List Item → List UInt8) (history : List (List Item)) : List UInt8 :=
  history.flatMap encode

private theorem batchText_append (encode : List Item → List UInt8) (history : List (List Item))
    (batch : List Item) : batchText encode (history ++ [batch]) =
      batchText encode history ++ encode batch := by
  simp [batchText]

/-- A writer of the committed length, from what its `write` does. -/
private theorem lengthStream_exact {write : List Item → Bool → WriterM WriteOutcome}
    {encode : List Item → List UInt8}
    (writes : ∀ bytes items stopRequested, Ends (Holds bytes bytes.length 0)
      (write items stopRequested)
      (fun outcome state => outcome = .stopped ∧ Holds bytes bytes.length 0 state ∨
        outcome = .written ∧ Holds (bytes ++ encode items) (bytes ++ encode items).length 0 state)
      (fun _ state => ∃ part, Holds (bytes ++ part) bytes.length 0 state)) :
    Exact (lengthStream write) (batchText encode) (fun _ => 0)
      (fun history => (batchText encode history).length) [] where
  grows history batch := by
    rw [batchText_append]
    exact List.prefix_append _ _
  write history items stopRequested := by
    refine (writes (batchText encode history) items stopRequested).weaken ?_ ?_ ?_
    · intro state holds
      rw [Carries, List.append_nil] at holds
      exact holds
    · intro outcome state ended
      unfold Carries
      rw [List.append_nil, List.append_nil, batchText_append]
      exact ended
    · exact fun _ _ failed => failed
  initial bytes := by
    refine (@openLength_ends [] bytes none rfl (.inl List.nil_prefix)).weaken
      (fun _ holds => holds) (fun _ _ holds => holds) ?_
    rintro _ state (same | empty)
    · exact .inl same
    · exact .inr (by rw [empty]; exact List.nil_prefix)
  restored history bytes starts := by
    refine (openLength_ends _ rfl starts).weaken (fun _ holds => holds) ?_ fun _ _ failed => failed
    intro _ state holds
    rw [Carries, List.append_nil]
    exact holds
  update history part state holds := holds.length
  closes history outcome := by
    refine Ends.pure fun state holds => ?_
    rw [ite_self]
    exact ⟨holds.length, holds.content⟩
  abandons history part outcome _ := Ends.pure fun _ holds => ⟨holds.length, holds.content⟩

private theorem min_zero_add (bound : Nat) : min (0 + 0) bound = 0 := Nat.zero_min bound

/-- `commit_position` after the whole batch has been appended. -/
private theorem commitLength_ends {base bytes : List UInt8} :
    Ends (Holds (base ++ bytes) base.length 0) (commitPosition 0)
      (fun outcome state => outcome = .stopped ∧ Holds base base.length 0 state ∨
        outcome = .written ∧ Holds (base ++ bytes) (base ++ bytes).length 0 state)
      (fun _ state => ∃ part, Holds (base ++ part) base.length 0 state) := by
  refine (commitPosition_ends 0).weaken (fun _ holds => holds) ?_ fun _ _ failed => ⟨bytes, failed⟩
  rintro outcome state ⟨written, holds⟩
  rw [min_zero_add] at holds
  exact .inr ⟨written, holds⟩

private theorem writeBuffer_ends (buffer : Option (List UInt8)) (stopRequested : Bool)
    (bytes : List UInt8) :
    Ends (Holds bytes bytes.length 0) (writeBuffer buffer stopRequested)
      (fun outcome state => outcome = .stopped ∧ Holds bytes bytes.length 0 state ∨
        outcome = .written ∧
          Holds (bytes ++ buffer.getD []) (bytes ++ buffer.getD []).length 0 state)
      (fun _ state => ∃ part, Holds (bytes ++ part) bytes.length 0 state) := by
  unfold writeBuffer
  refine Ends.ite (fun _ => Ends.pure fun _ holds => .inl ⟨rfl, holds⟩) fun _ => ?_
  cases buffer with
  | none =>
    refine Ends.throw fun state holds => ⟨[], ?_⟩
    rw [List.append_nil]
    exact holds
  | some buffer =>
    refine Ends.bind _ ?_ fun _ => commitLength_ends
    refine (writeAll_ends buffer).weaken (fun _ holds => holds) (fun _ _ holds => holds) ?_
    rintro _ state ⟨part, _, holds⟩
    exact ⟨part, holds⟩

theorem delimitedWriter_exact (csv : List (List String) → Option (List UInt8)) :
    Exact (delimitedWriter csv)
      (batchText fun items => (csv (items.map (·.fields))).getD []) (fun _ => 0)
      (fun history => (batchText (fun items => (csv (items.map (·.fields))).getD [])
        history).length) [] :=
  lengthStream_exact fun bytes items stopRequested => writeBuffer_ends _ stopRequested bytes

theorem fixedWidthWriter_exact (layout : FixedWidth.Layout) :
    Exact (fixedWidthWriter layout) (batchText fun items => (encodeRecords layout items).getD [])
      (fun _ => 0)
      (fun history => (batchText (fun items => (encodeRecords layout items).getD [])
        history).length) [] :=
  lengthStream_exact fun bytes items stopRequested => writeBuffer_ends _ stopRequested bytes

/-- The lines of a batch. -/
def linesText {Value : Type} (encode : Value → List UInt8) (terminator : JsonLinesTerminator)
    (items : List Value) : List UInt8 :=
  items.flatMap fun item => encode item ++ terminator.bytes

theorem jsonLinesWriter_exact {Value : Type} (encode : Value → List UInt8)
    (terminator : JsonLinesTerminator) :
    Exact (jsonLinesWriter encode terminator) (batchText (linesText encode terminator)) (fun _ => 0)
      (fun history => (batchText (linesText encode terminator) history).length) [] := by
  refine lengthStream_exact fun bytes items stopRequested => ?_
  unfold JsonLinesWriter.write
  refine Ends.ite (fun _ => Ends.pure fun _ holds => .inl ⟨rfl, holds⟩) fun _ => ?_
  refine Ends.bind (fun _ => Holds (bytes ++ linesText encode terminator items) bytes.length 0) ?_
    fun _ => commitLength_ends
  -- the lines of the items that are done stand behind the committed bytes
  refine (Ends.foldlM (fun done _ => Holds (bytes ++ linesText encode terminator done)
    bytes.length 0) ?_).weaken ?_ (fun _ _ holds => holds) fun _ _ failed => failed
  · intro done item rest _ _
    have whole : bytes ++ linesText encode terminator (done ++ [item]) =
        bytes ++ linesText encode terminator done ++ encode item ++ terminator.bytes := by
      simp [linesText]
    rw [whole]
    refine Ends.bind (fun _ => Holds (bytes ++ linesText encode terminator done ++ encode item)
      bytes.length 0) ?_ fun _ => ?_
    · refine (writeAll_ends (encode item)).weaken (fun _ holds => holds) (fun _ _ holds => holds) ?_
      rintro _ state ⟨part, _, holds⟩
      rw [List.append_assoc] at holds
      exact ⟨_, holds⟩
    · refine (writeAll_ends terminator.bytes).weaken (fun _ holds => holds)
        (fun _ _ holds => holds) ?_
      rintro _ state ⟨part, _, holds⟩
      rw [List.append_assoc, List.append_assoc] at holds
      exact ⟨_, holds⟩
  · intro state holds
    simpa [linesText] using holds

end Length

section Array

private theorem starts_of_same {left right : List UInt8} (same : left = right) : left <+:
    right := by
  subst same
  exact List.prefix_rfl

variable {Value : Type} {encode : Value → List UInt8}

/-- Elements with a comma before each but the first of the array. -/
def elementsText (encode : Value → List UInt8) : Bool → List Value → List UInt8
  | _, [] => []
  | hasItems, item :: items =>
    (if hasItems then comma else []) ++ encode item ++ elementsText encode true items

/-- An array that is still open. -/
def arrayText (encode : Value → List UInt8) (history : List (List Value)) : List UInt8 :=
  leftBracket ++ elementsText encode false history.flatten

/-- The elements of an array as far as a `u64` counts them. -/
def arrayCount (history : List (List Value)) : Nat := min history.flatten.length (2 ^ 64 - 1)

def arrayPosition (encode : Value → List UInt8) (history : List (List Value)) : WriterPosition :=
  ⟨(arrayText encode history).length, arrayCount history⟩

private theorem elementsText_append (hasItems : Bool) (first second : List Value) :
    elementsText encode hasItems (first ++ second) =
      elementsText encode hasItems first ++
        elementsText encode (hasItems || !first.isEmpty) second := by
  induction first generalizing hasItems with
  | nil => simp [elementsText]
  | cons item items ih => simp [elementsText, ih]

private theorem arrayText_append (history : List (List Value)) (batch : List Value) :
    arrayText encode (history ++ [batch]) =
      arrayText encode history ++ elementsText encode (!history.flatten.isEmpty) batch := by
  unfold arrayText
  rw [List.flatten_append, List.flatten_singleton, elementsText_append, Bool.false_or,
    List.append_assoc]

private theorem arrayCount_append (history : List (List Value)) (batch : List Value) :
    arrayCount (history ++ [batch]) = min (arrayCount history + batch.length) (2 ^ 64 - 1) := by
  unfold arrayCount
  rw [List.flatten_append, List.flatten_singleton, List.length_append]
  generalize 2 ^ 64 - 1 = bound
  omega

/-- A comma is due once the array has an element. -/
private theorem arrayCount_pos (history : List (List Value)) :
    decide (0 < arrayCount history) = !history.flatten.isEmpty := by
  unfold arrayCount
  cases history.flatten with
  | nil => simp
  | cons item items =>
    simp only [List.length_cons, List.isEmpty_cons, Bool.not_false, decide_eq_true_eq]
    omega

private theorem writeElement_ends {base : List UInt8} {length items : Nat} (hasItems : Bool)
    (item : Value)
    (failed : WriterError → WriterState → Prop)
    (fails : ∀ failure state part, Holds (base ++ part) length items state → failed failure state) :
    Ends (Holds base length items) (writeElement encode hasItems item)
      (fun more state => more = true ∧
        Holds (base ++ (if hasItems then comma else []) ++ encode item) length items state)
      failed := by
  unfold writeElement
  have separate : Ends (Holds base length items) (writeSeparator hasItems)
      (fun _ => Holds (base ++ if hasItems then comma else []) length items) failed := by
    refine Ends.ite (fun due => ?_) fun notDue => ?_
    · rw [if_pos due]
      refine (writeAll_ends comma).weaken (fun _ holds => holds) (fun _ _ holds => holds) ?_
      rintro failure state ⟨part, _, holds⟩
      exact fails failure state part holds
    · rw [if_neg notDue, List.append_nil]
      exact Ends.pure fun _ holds => holds
  refine Ends.bind _ separate fun _ => ?_
  refine Ends.bind (fun _ => Holds (base ++ (if hasItems then comma else []) ++ encode item) length
    items) ?_ fun _ => Ends.pure fun _ holds => ⟨rfl, holds⟩
  refine (writeAll_ends (encode item)).weaken (fun _ holds => holds) (fun _ _ holds => holds) ?_
  rintro failure state ⟨part, _, holds⟩
  rw [List.append_assoc] at holds
  exact fails failure state _ holds

/-- The element loop appends the elements of the batch. -/
private theorem writeElements_ends {base : List UInt8} {length items : Nat} (hasItems : Bool)
    (batch : List Value) :
    Ends (Holds base length items) (batch.foldlM (writeElement encode) hasItems)
      (fun _ => Holds (base ++ elementsText encode hasItems batch) length items)
      (fun (_ : WriterError) state => ∃ part, Holds (base ++ part) length items state) := by
  refine (Ends.foldlM (fun done more state => more = (hasItems || !done.isEmpty) ∧
    Holds (base ++ elementsText encode hasItems done) length items state) ?_).weaken ?_ ?_
    fun _ _ failed => failed
  · intro done item rest more _
    have whole : base ++ elementsText encode hasItems (done ++ [item]) =
        base ++ elementsText encode hasItems done ++
          (if hasItems || !done.isEmpty then comma else []) ++ encode item := by
      rw [elementsText_append]
      simp [elementsText]
    intro state entered
    obtain ⟨rfl, holds⟩ := entered
    refine ((writeElement_ends (hasItems || !done.isEmpty) item _ ?_).weaken (fun _ holds => holds)
      ?_ fun _ _ failed => failed) state holds
    · intro failure state part holds
      rw [List.append_assoc] at holds
      exact ⟨_, holds⟩
    · rintro more state ⟨rfl, holds⟩
      rw [whole]
      exact ⟨by simp, holds⟩
  · intro state holds
    simpa [elementsText] using holds
  · exact fun _ _ ended => ended.2

private theorem jsonArrayWriter_write (history : List (List Value)) (items : List Value)
    (stopRequested : Bool) :
    Ends (Carries (arrayText encode) arrayCount history [])
      (JsonArrayWriter.write encode items stopRequested)
      (fun outcome state =>
        outcome = .stopped ∧ Carries (arrayText encode) arrayCount history [] state ∨
        outcome = .written ∧ Carries (arrayText encode) arrayCount (history ++ [items]) [] state)
      (fun _ state => ∃ part, Carries (arrayText encode) arrayCount history part state) := by
  have append := @arrayText_append Value encode history items
  have counts := arrayCount_append history items
  unfold Carries
  unfold JsonArrayWriter.write
  simp only [List.append_nil]
  refine Ends.ite (fun _ => Ends.pure fun _ holds => .inl ⟨rfl, holds⟩) fun _ => ?_
  refine Ends.ite (fun empty => ?_) fun _ => ?_
  · rw [List.isEmpty_iff] at empty
    subst empty
    have same : arrayCount (history ++ [[]]) = arrayCount history := by
      simp [arrayCount]
    rw [append, same]
    simp only [elementsText, List.append_nil]
    exact Ends.pure fun _ holds => .inr ⟨rfl, holds⟩
  · refine Ends.bind _ Ends.get fun state => ?_
    refine Ends.bind (fun _ => Holds (arrayText encode history ++
      elementsText encode (!history.flatten.isEmpty) items) (arrayText encode history).length
      (arrayCount history)) ?_ fun _ => ?_
    · rintro state' ⟨rfl, holds⟩
      rw [holds.items, arrayCount_pos]
      exact writeElements_ends _ items state holds
    · refine (commitPosition_ends items.length).weaken (fun _ holds => holds) ?_
        fun _ _ failed => ⟨_, failed⟩
      rintro outcome state ⟨written, holds⟩
      rw [append, counts]
      exact .inr ⟨written, holds⟩

/-- A fresh array is emptied first and then gets its opening bracket. -/
private theorem jsonArrayWriter_initial (bytes : List UInt8) :
    Ends (fun state => state.file.bytes = bytes ∧ state.committedItems = 0)
      (JsonArrayWriterStream.openStream none) (fun _ => Holds leftBracket 1 0)
      (fun _ state => state.file.bytes = bytes ∨ state.file.bytes <+: leftBracket) := by
  unfold JsonArrayWriterStream.openStream
  have bracket : Ends (fun state => state.file.bytes = bytes ∧ state.committedItems = 0)
      (prepareArray none)
      (fun _ state => state.file.bytes = leftBracket)
      (fun _ state => state.file.bytes = bytes ∨ state.file.bytes <+: leftBracket) := by
    refine Ends.bind (fun _ state => state.file.bytes = []) ?_ fun _ => ?_
    · refine answer_ends (fun state holds => ?_) fun state holds => .inl holds.1
      change state.file.bytes.take 0 ++ List.replicate (0 - state.file.bytes.length) 0 = []
      rw [Nat.zero_sub]
      rfl
    refine Ends.bind (fun _ state => ∃ length items, Holds [] length items state) ?_ fun _ => ?_
    · refine answer_ends (fun state holds => ⟨_, _, holds, rfl, rfl, rfl⟩) fun state holds => .inr ?_
      rw [show state.file.counted.bytes = [] from holds]
      exact List.nil_prefix
    refine Ends.bind (fun _ state => state.file.bytes = leftBracket) ?_ fun _ => ?_
    · rintro state ⟨length, items, holds⟩
      refine (writeAll_ends leftBracket).weaken (fun _ holds => holds)
        (fun _ _ holds => holds.content) ?_ state holds
      rintro _ state ⟨part, starts, holds⟩
      exact .inr (holds.content ▸ starts)
    · exact answer_ends (fun state holds => holds) fun state holds =>
        .inr (starts_of_same holds)
  refine Ends.bind _ bracket fun _ => ?_
  refine Ends.bind (fun _ state => state.file.bytes = leftBracket ∧ state.file.cursor = 1) ?_
    fun _ => ?_
  · exact answer_ends (fun state holds => ⟨holds, rfl⟩) fun state holds =>
      .inr (starts_of_same holds)
  · refine Ends.bind (fun _ => Holds leftBracket 1 0) ?_ fun _ => Ends.pure fun _ holds => holds
    exact Ends.modify fun state holds => ⟨holds.1, holds.2, rfl, rfl⟩

private theorem jsonArrayWriter_restored (history : List (List Value)) (bytes : List UInt8)
    (starts : arrayText encode history <+: bytes ∨
      bytes.length < (arrayText encode history).length) :
    Ends (fun state => state.file.bytes = bytes ∧ state.committedItems = 0)
      (JsonArrayWriterStream.openStream (some (arrayPosition encode history)))
      (fun _ => Holds (arrayText encode history) (arrayText encode history).length
        (arrayCount history))
      (fun _ state => state.file.bytes = bytes ∨ state.file.bytes = arrayText encode history) := by
  unfold JsonArrayWriterStream.openStream
  refine Ends.bind _ (reconcile_ends starts) fun _ => ?_
  refine Ends.bind (fun _ state => state.file.bytes = arrayText encode history ∧
    state.file.cursor = (arrayText encode history).length) ?_ fun _ => ?_
  · exact answer_ends (fun state holds => ⟨holds.1, rfl⟩) fun state holds => .inr holds.1
  · refine Ends.bind (fun _ => Holds (arrayText encode history) (arrayText encode history).length
      (arrayCount history)) ?_ fun _ => Ends.pure fun _ holds => holds
    exact Ends.modify fun state holds => ⟨holds.1, holds.2, rfl, rfl⟩

/-- The closing bracket goes right behind the committed elements. -/
private theorem jsonArrayWriter_close (history : List (List Value))
    (outcome : StreamRuntimeOutcome) :
    Ends (Carries (arrayText encode) arrayCount history []) (JsonArrayWriterStream.close outcome)
      (fun _ state => state.committedBytes = (arrayText encode history).length ∧
        state.file.bytes = arrayText encode history ++
          if outcome = .committed then rightBracket else [])
      (fun _ state => arrayText encode history <+: state.file.bytes) := by
  unfold Carries JsonArrayWriterStream.close
  rw [List.append_nil]
  refine Ends.ite (fun committed => ?_) fun other => ?_
  · rw [if_pos committed]
    refine Ends.bind _ Ends.get fun state => ?_
    refine Ends.bind (fun _ => Holds (arrayText encode history) (arrayText encode history).length
      (arrayCount history)) ?_ fun _ => ?_
    · rintro state' ⟨rfl, holds⟩
      rw [holds.length]
      refine answer_ends ?_ ?_ state holds
      · exact fun state holds => ⟨holds.content, rfl, holds.length, holds.items⟩
      · exact fun state holds => starts_of_same holds.content.symm
    refine Ends.bind (fun _ state => state.committedBytes = (arrayText encode history).length ∧
      state.file.bytes = arrayText encode history ++ rightBracket) ?_ fun _ => ?_
    · refine (writeAll_ends rightBracket).weaken (fun _ holds => holds)
        (fun _ _ holds => ⟨holds.length, holds.content⟩) ?_
      rintro _ state ⟨part, _, holds⟩
      rw [holds.content]
      exact List.prefix_append _ _
    · refine answer_ends (fun state holds => holds) fun state holds => ?_
      rw [show state.file.counted.bytes = _ from holds.2]
      exact List.prefix_append _ _
  · rw [if_neg other, List.append_nil]
    exact Ends.pure fun _ holds => ⟨holds.length, holds.content⟩

theorem jsonArrayWriter_exact (encode : Value → List UInt8) :
    Exact (jsonArrayWriter encode) (arrayText encode) arrayCount (arrayPosition encode)
      rightBracket where
  grows history batch := by
    rw [arrayText_append]
    exact List.prefix_append _ _
  write := jsonArrayWriter_write
  initial bytes := jsonArrayWriter_initial bytes
  restored history bytes starts := by
    refine (jsonArrayWriter_restored history bytes starts).weaken (fun _ holds => holds) ?_
      fun _ _ failed => failed
    intro _ state holds
    rw [Carries, List.append_nil]
    exact holds
  update history part state holds := by
    change WriterPosition.mk state.committedBytes state.committedItems = _
    rw [holds.length, holds.items]
    rfl
  closes := jsonArrayWriter_close
  abandons history part outcome other := by
    have notCommitted : outcome ≠ .committed := by
      rcases other with other | closing
      · exact other
      · cases closing
    change Ends _ (JsonArrayWriterStream.close outcome) _ _
    rw [JsonArrayWriterStream.close, if_neg notCommitted]
    exact Ends.pure fun _ holds => ⟨holds.length, holds.content⟩

end Array

end OxideBatch.Item
