import Mathlib

/-! The incremental CSV parser the delimited reader is built on. The parser is a
third-party crate, so it enters as a value of `CsvCore` together with the
documented contract of `read_record`. -/

namespace OxideBatch.Item

inductive ReadRecordResult where
  | inputEmpty
  | outputFull
  | outputEndsFull
  | record
  | atEnd
  deriving DecidableEq, Repr

/-- What one `read_record` call returns and leaves behind: the bytes it took,
the field bytes and field ends it wrote, and the parser state. -/
structure RecordCall (State : Type) where
  result : ReadRecordResult
  nin : Nat
  output : List UInt8
  ends : List Nat
  state : State

/-- The part of `csv_core::Reader` the delimited reader uses. -/
structure CsvCore where
  State : Type
  start : State
  readRecord : State → List UInt8 → Nat → Nat → RecordCall State
  line : State → Nat
  setLine : State → Nat → State
  reset : State → State

/-- One parsed record: its unescaped field bytes, the cumulative end of each
field in them, and the raw bytes it spans. -/
structure Parsed where
  output : List UInt8
  ends : List Nat
  span : Nat
  deriving DecidableEq, Repr

/-- `input` is what a source standing `taken` bytes into `text` may offer. -/
structure Feeds (text : List UInt8) (taken : Nat) (input : List UInt8) : Prop where
  ofText : input <+: text.drop taken
  nonempty : input = [] → text.drop taken = []

/-- The documented behaviour of `read_record`. The record that starts at a
boundary is a function `scan` of the bytes from there on; `Inside state text
taken output ends` says that the parser has taken that many bytes of it and has
written that much. What `csv_core` does with a byte order mark is outside of it:
it takes one off the front of its first input, where a single call brings it whole. -/
structure CsvCore.Contract (core : CsvCore) where
  scan : List UInt8 → Option Parsed
  Inside : core.State → List UInt8 → Nat → List UInt8 → List Nat → Prop
  /-- A record spans at least one byte and no more than there are. -/
  scan_span : ∀ {text parsed}, scan text = some parsed →
    0 < parsed.span ∧ parsed.span ≤ text.length
  start_inside : ∀ text, Inside core.start text 0 [] []
  reset_inside : ∀ state text, Inside (core.reset state) text 0 [] []
  setLine_inside : ∀ {state text taken output ends} line,
    Inside state text taken output ends → Inside (core.setLine state line) text taken output ends
  /-- A parser inside a record has not passed its end. -/
  inside_span : ∀ {state text taken output ends parsed}, Inside state text taken output ends →
    scan text = some parsed → taken ≤ parsed.span
  /-- A call takes and writes no more than it was given. -/
  call_bounds : ∀ {state text taken output ends input} room endsRoom,
    Inside state text taken output ends → Feeds text taken input →
    let call := core.readRecord state input room endsRoom
    call.nin ≤ input.length ∧ call.output.length ≤ room ∧ call.ends.length ≤ endsRoom
  /-- An unfinished call writes at most one byte and one end per byte taken. -/
  call_unfinished : ∀ {state text taken output ends input} room endsRoom,
    Inside state text taken output ends → Feeds text taken input →
    let call := core.readRecord state input room endsRoom
    call.result ≠ .record → call.result ≠ .atEnd →
      Inside call.state text (taken + call.nin) (output ++ call.output) (ends ++ call.ends) ∧
      call.output.length ≤ call.nin ∧ call.ends.length ≤ call.nin
  /-- More input is asked for only when some was given and all of it was taken. -/
  call_inputEmpty : ∀ {state text taken output ends input} room endsRoom,
    Inside state text taken output ends → Feeds text taken input →
    let call := core.readRecord state input room endsRoom
    call.result = .inputEmpty → input ≠ [] ∧ call.nin = input.length
  /-- More output room is asked for only when the room given is full and the
  record goes on. -/
  call_outputFull : ∀ {state text taken output ends input} room endsRoom,
    Inside state text taken output ends → Feeds text taken input →
    let call := core.readRecord state input room endsRoom
    call.result = .outputFull → call.output.length = room ∧
      ∀ parsed, scan text = some parsed → taken + call.nin < parsed.span
  call_outputEndsFull : ∀ {state text taken output ends input} room endsRoom,
    Inside state text taken output ends → Feeds text taken input →
    let call := core.readRecord state input room endsRoom
    call.result = .outputEndsFull → call.ends.length = endsRoom
  /-- A finished record is the scanned one, and the next one starts after it. -/
  call_record : ∀ {state text taken output ends input} room endsRoom,
    Inside state text taken output ends → Feeds text taken input →
    let call := core.readRecord state input room endsRoom
    call.result = .record →
      scan text = some ⟨output ++ call.output, ends ++ call.ends, taken + call.nin⟩ ∧
      Inside call.state (text.drop (taken + call.nin)) 0 [] []
  /-- The end is reported when no record is left and every byte was taken. -/
  call_atEnd : ∀ {state text taken output ends input} room endsRoom,
    Inside state text taken output ends → Feeds text taken input →
    let call := core.readRecord state input room endsRoom
    call.result = .atEnd → scan text = none ∧ taken + call.nin = text.length ∧
      Inside call.state [] 0 [] []

namespace CsvCore.Contract

variable {core : CsvCore} (contract : core.Contract)

/-- Raw bytes up to the next record boundary. -/
def reach (text : List UInt8) : Nat :=
  match contract.scan text with
  | some parsed => parsed.span
  | none => text.length

/-- Records of a text by fuel; every record takes a byte. -/
def recordsFrom : Nat → List UInt8 → List Parsed
  | 0, _ => []
  | fuel + 1, text =>
    match contract.scan text with
    | some parsed => parsed :: recordsFrom fuel (text.drop parsed.span)
    | none => []

/-- Every record of a text, in order. -/
def records (text : List UInt8) : List Parsed := contract.recordsFrom text.length text

theorem scan_nil : contract.scan [] = none := by
  cases found : contract.scan [] with
  | none => rfl
  | some parsed =>
    have bounds := contract.scan_span found
    simp only [List.length_nil] at bounds
    omega

private theorem recordsFrom_stable (fuel extra : Nat) (text : List UInt8)
    (enough : text.length ≤ fuel) :
    contract.recordsFrom (fuel + extra) text = contract.recordsFrom fuel text := by
  induction fuel generalizing text with
  | zero =>
    have empty : text = [] := List.length_eq_zero_iff.mp (Nat.le_zero.mp enough)
    subst empty
    cases extra with
    | zero => rfl
    | succ extra => simp [recordsFrom, contract.scan_nil]
  | succ fuel ih =>
    rw [Nat.succ_add]
    cases found : contract.scan text with
    | none => simp [recordsFrom, found]
    | some parsed =>
      have bounds := contract.scan_span found
      have shorter : (text.drop parsed.span).length ≤ fuel := by
        rw [List.length_drop]
        omega
      simp [recordsFrom, found, ih _ shorter]

theorem records_of_none (found : contract.scan text = none) : contract.records text = [] := by
  unfold records
  cases text.length with
  | zero => rfl
  | succ fuel => simp [recordsFrom, found]

theorem records_of_some (found : contract.scan text = some parsed) :
    contract.records text = parsed :: contract.records (text.drop parsed.span) := by
  have bounds := contract.scan_span found
  obtain ⟨fuel, size⟩ : ∃ fuel, text.length = fuel + 1 := ⟨text.length - 1, by omega⟩
  have split : fuel = (text.drop parsed.span).length + (parsed.span - 1) := by
    rw [List.length_drop]
    omega
  have same := contract.recordsFrom_stable _ (parsed.span - 1) (text.drop parsed.span)
    (Nat.le_refl _)
  rw [← split] at same
  simp [records, size, recordsFrom, found, same]

end CsvCore.Contract

end OxideBatch.Item
