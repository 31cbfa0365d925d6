import OxideBatch.Core.Component
import OxideBatch.Lib.Triple

/-! A local output file: bytes and a cursor, with failures chosen call by call, and the
committed state that a writer and its stream share over it. -/

namespace OxideBatch.Item

open OxideBatch.Core Triple

/-- An open file. A planned failure of a write leaves that many bytes of it behind;
a planned failure of any other call leaves nothing. -/
structure OutputFile where
  bytes : List UInt8
  cursor : Nat
  plan : Nat → Option Nat
  calls : Nat

namespace OutputFile

/-- Bytes put at the cursor; a gap before it reads as zeros. -/
def put (file : OutputFile) (data : List UInt8) : OutputFile :=
  if data = [] then file
  else { file with
    bytes := (file.bytes ++ List.replicate (file.cursor - file.bytes.length) 0).take file.cursor ++
      data ++ file.bytes.drop (file.cursor + data.length)
    cursor := file.cursor + data.length }

def counted (file : OutputFile) : OutputFile := { file with calls := file.calls + 1 }

def writeAll (data : List UInt8) (file : OutputFile) : Option Unit × OutputFile :=
  match file.plan file.calls with
  | none => (some (), (file.put data).counted)
  | some written => (none, (file.put (data.take written)).counted)

/-- A call that answers when it is not planned to fail. -/
def answer {α : Type} (value : α) (change : OutputFile → OutputFile) (file : OutputFile) :
    Option α × OutputFile :=
  match file.plan file.calls with
  | none => (some value, (change file).counted)
  | some _ => (none, file.counted)

def syncData (file : OutputFile) : Option Unit × OutputFile := file.answer () id

def streamPosition (file : OutputFile) : Option Nat × OutputFile := file.answer file.cursor id

/-- `metadata().len()`. -/
def length (file : OutputFile) : Option Nat × OutputFile := file.answer file.bytes.length id

def setLen (size : Nat) (file : OutputFile) : Option Unit × OutputFile :=
  file.answer () fun file => { file with
    bytes := file.bytes.take size ++ List.replicate (size - file.bytes.length) 0 }

def seek (target : Nat) (file : OutputFile) : Option Unit × OutputFile :=
  file.answer () fun file => { file with cursor := target }

end OutputFile

/-- What a writer and its stream share under one lock. Only the JSON array writer
counts items. -/
structure WriterState where
  file : OutputFile
  committedBytes : Nat
  committedItems : Nat

/-- One file call; its failure becomes `failure`. -/
def call {ε α : Type} (failure : ε) (operation : OutputFile → Option α × OutputFile) :
    Fallible WriterState ε α :=
  fun state =>
    match operation state.file with
    | (some value, file) => (.ok value, { state with file })
    | (none, file) => (.error failure, { state with file })

abbrev WriterM := Fallible WriterState WriterError

abbrev OpenM := Fallible WriterState StreamOpenError

abbrev CloseM := Fallible WriterState StreamCloseError

def openFailed : StreamOpenError := ⟨.userComponent⟩

def closeFailed : StreamCloseError := ⟨.userComponent⟩

section Shared

/-- The end of every `write`: sync, then commit the position of the cursor. -/
def commitPosition (items : Nat) : WriterM WriteOutcome := do
  call .new OutputFile.syncData
  let candidateBytes ← call .new OutputFile.streamPosition
  modify fun state => { state with
    committedBytes := candidateBytes
    committedItems := min (state.committedItems + items) (2 ^ 64 - 1) }
  pure .written

/-- A file that is longer than the committed length is cut back to it; a shorter one is
inconsistent. -/
def reconcile (target : Nat) : OpenM Unit := do
  let actualLen ← call openFailed OutputFile.length
  if actualLen < target then throw ⟨.invariant⟩
  else if actualLen ≠ target then call openFailed (OutputFile.setLen target)
  else pure ()

/-- `open` of the streams whose state is the committed length alone. -/
def openLength (inherited : Option Nat) : OpenM StreamOpenOutcome := do
  let target := inherited.getD 0
  reconcile target
  call openFailed (OutputFile.seek target)
  modify fun state => { state with committedBytes := target }
  pure (if inherited.isSome then .restored else .initial)

end Shared

section Calls

/-- The file holds `bytes` with the cursor at its end, and the committed counts are
these. -/
structure Holds (bytes : List UInt8) (committedBytes committedItems : Nat) (state : WriterState) :
    Prop where
  content : state.file.bytes = bytes
  cursor : state.file.cursor = bytes.length
  length : state.committedBytes = committedBytes
  items : state.committedItems = committedItems

variable {ε : Type} {failure : ε} {bytes : List UInt8} {committedBytes committedItems : Nat}

private theorem put_at_end {file : OutputFile} (atEnd : file.cursor = file.bytes.length)
    (data : List UInt8) :
    (file.put data).bytes = file.bytes ++ data ∧
      (file.put data).cursor = (file.bytes ++ data).length := by
  unfold OutputFile.put
  split
  · next empty =>
    subst empty
    simp [atEnd]
  · simp [atEnd]

/-- A write at the end of the file appends its bytes, or a part of them when it fails. -/
theorem writeAll_ends (data : List UInt8) :
    Ends (Holds bytes committedBytes committedItems) (call failure (OutputFile.writeAll data))
      (fun _ => Holds (bytes ++ data) committedBytes committedItems)
      (fun _ state => ∃ part, part <+: data ∧
        Holds (bytes ++ part) committedBytes committedItems state) := by
  intro state holds
  have atEnd : state.file.cursor = state.file.bytes.length := by rw [holds.cursor, holds.content]
  simp only [runs, call, ExceptT.run, OutputFile.writeAll]
  cases state.file.plan state.file.calls with
  | none =>
    obtain ⟨put, cursor⟩ := put_at_end atEnd data
    refine ⟨?_, ?_, holds.length, holds.items⟩
    · rw [← holds.content]
      exact put
    · rw [← holds.content]
      exact cursor
  | some written =>
    obtain ⟨put, cursor⟩ := put_at_end atEnd (data.take written)
    refine ⟨data.take written, List.take_prefix _ _, ?_, ?_, holds.length,
      holds.items⟩
    · rw [← holds.content]
      exact put
    · rw [← holds.content]
      exact cursor

/-- Every other call changes the file as planned or not at all. -/
theorem answer_ends {α : Type} {value : OutputFile → α} {change : OutputFile → OutputFile}
    {before : WriterState → Prop} {after : α → WriterState → Prop}
    {failed : ε → WriterState → Prop}
    (answers : ∀ state, before state →
      after (value state.file) { state with file := (change state.file).counted })
    (fails : ∀ state, before state → failed failure { state with file := state.file.counted }) :
    Ends before (call failure fun file => file.answer (value file) change) after failed := by
  intro state holds
  simp only [runs, call, ExceptT.run, OutputFile.answer]
  cases state.file.plan state.file.calls with
  | none => exact answers state holds
  | some _ => exact fails state holds

theorem Holds.counted {state : WriterState} (holds : Holds bytes committedBytes committedItems state) :
    Holds bytes committedBytes committedItems { state with file := state.file.counted } :=
  ⟨holds.content, holds.cursor, holds.length, holds.items⟩

theorem commitPosition_ends (items : Nat) :
    Ends (Holds bytes committedBytes committedItems) (commitPosition items)
      (fun outcome state => outcome = .written ∧
        Holds bytes bytes.length (min (committedItems + items) (2 ^ 64 - 1)) state)
      (fun _ => Holds bytes committedBytes committedItems) := by
  unfold commitPosition
  refine Ends.bind (fun _ => Holds bytes committedBytes committedItems)
    (answer_ends (fun _ holds => holds.counted) fun _ holds => holds.counted) fun _ => ?_
  refine Ends.bind (fun candidate state => candidate = bytes.length ∧
    Holds bytes committedBytes committedItems state) ?_ ?_
  · exact answer_ends (fun _ holds => ⟨holds.cursor, holds.counted⟩) fun _ holds => holds.counted
  · intro candidate
    refine Ends.bind (fun _ => Holds bytes bytes.length (min (committedItems + items) (2 ^ 64 - 1)))
      ?_ fun _ => Ends.pure fun _ holds => ⟨rfl, holds⟩
    apply Ends.modify
    rintro state ⟨same, holds⟩
    subst same
    refine ⟨holds.content, holds.cursor, rfl, ?_⟩
    rw [holds.items]

end Calls

end OxideBatch.Item
