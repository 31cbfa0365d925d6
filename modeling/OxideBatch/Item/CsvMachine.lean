import OxideBatch.Item.Delimited

/-! Record machines: byte-at-a-time parsers driven with bounded buffers. Every
record machine meets the parser contract, and the CSV grammar of a dialect is
one of them. -/

namespace OxideBatch.Item

inductive Mark where
  | inside
  | field
  | record
  deriving DecidableEq, Repr

/-- One byte's effect: the next state, whether the byte is field content, and
what ends with it. -/
structure Move (Q : Type) where
  next : Q
  emits : Bool
  mark : Mark

/-- A byte machine. `closes` tells whether the end of input ends a record. -/
structure RecordMachine where
  Q : Type
  start : Q
  step : Q → UInt8 → Move Q
  closes : Q → Bool
  start_open : closes start = false

namespace RecordMachine

variable (machine : RecordMachine)

structure State where
  q : machine.Q
  outputPos : Nat
  line : Nat

/-- The field content a move adds. -/
def emitted (move : Move machine.Q) (byte : UInt8) : List UInt8 :=
  if move.emits then [byte] else []

/-- The field ends a move that finishes no record adds. -/
def fieldEnds (move : Move machine.Q) (position : Nat) : List Nat :=
  if move.mark = .field then [position] else []

def nextLine (line : Nat) (byte : UInt8) : Nat := if byte = 10 then line + 1 else line

/-- The byte loop of one call, with the rooms that are left. -/
def drive (q : machine.Q) (position line : Nat) :
    Nat → Nat → List UInt8 → RecordCall machine.State
  | _, _, [] => ⟨.inputEmpty, 0, [], [], ⟨q, position, line⟩⟩
  | room, endsRoom, byte :: input =>
    if room = 0 then ⟨.outputFull, 0, [], [], ⟨q, position, line⟩⟩
    else if endsRoom = 0 then ⟨.outputEndsFull, 0, [], [], ⟨q, position, line⟩⟩
    else
      let move := machine.step q byte
      let output := machine.emitted move byte
      let reached := position + output.length
      if move.mark = .record then
        ⟨.record, 1, output, [reached], ⟨machine.start, 0, nextLine line byte⟩⟩
      else
        let ends := machine.fieldEnds move reached
        let later := drive move.next reached (nextLine line byte) (room - output.length)
          (endsRoom - ends.length) input
        { later with
          nin := 1 + later.nin, output := output ++ later.output, ends := ends ++ later.ends }

def readRecord (state : machine.State) (input : List UInt8) (room endsRoom : Nat) :
    RecordCall machine.State :=
  if input = [] then
    if machine.closes state.q then
      if endsRoom = 0 then ⟨.outputEndsFull, 0, [], [], state⟩
      else ⟨.record, 0, [], [state.outputPos], ⟨machine.start, 0, state.line⟩⟩
    else ⟨.atEnd, 0, [], [], ⟨machine.start, 0, state.line⟩⟩
  else machine.drive state.q state.outputPos state.line room endsRoom input

/-- The machine as an incremental parser. -/
def core : CsvCore where
  State := machine.State
  start := ⟨machine.start, 0, 1⟩
  readRecord := machine.readRecord
  line := (·.line)
  setLine := fun state line => { state with line }
  reset := fun _ => ⟨machine.start, 0, 1⟩

/-- A parsed suffix extended by what came before it. -/
def extend (taken : Nat) (output : List UInt8) (ends : List Nat) (parsed : Parsed) : Parsed :=
  ⟨output ++ parsed.output, ends ++ parsed.ends, taken + parsed.span⟩

/-- The record a machine in state `q` completes on `text`. -/
def scanFrom (q : machine.Q) (position : Nat) : List UInt8 → Option Parsed
  | [] => if machine.closes q then some ⟨[], [position], 0⟩ else none
  | byte :: text =>
    let move := machine.step q byte
    let output := machine.emitted move byte
    let reached := position + output.length
    if move.mark = .record then some ⟨output, [reached], 1⟩
    else (scanFrom move.next reached text).map (extend 1 output (machine.fieldEnds move reached))

variable {machine}

private theorem extend_nothing : extend 0 [] [] = id := by
  funext parsed
  simp [extend]

private theorem extend_extend (taken more : Nat) (output moreOutput : List UInt8)
    (ends moreEnds : List Nat) (parsed : Parsed) :
    extend taken output ends (extend more moreOutput moreEnds parsed) =
      extend (taken + more) (output ++ moreOutput) (ends ++ moreEnds) parsed := by
  simp [extend, Nat.add_assoc]

private theorem emitted_length (move : Move machine.Q) (byte : UInt8) :
    (machine.emitted move byte).length ≤ 1 := by
  unfold emitted
  split <;> simp

private theorem fieldEnds_length (move : Move machine.Q) (position : Nat) :
    (machine.fieldEnds move position).length ≤ 1 := by
  unfold fieldEnds
  split <;> simp

private theorem scanFrom_span (found : machine.scanFrom q position text = some parsed) :
    parsed.span ≤ text.length ∧ (text ≠ [] → 0 < parsed.span) := by
  induction text generalizing q position parsed with
  | nil =>
    simp only [scanFrom] at found
    split at found
    · cases found; simp
    · cases found
  | cons byte text ih =>
    simp only [scanFrom] at found
    split at found
    · cases found; simp
    · obtain ⟨later, scanned, same⟩ := Option.map_eq_some_iff.mp found
      have bound := (ih scanned).1
      subst same
      simp only [extend, List.length_cons]
      exact ⟨by omega, fun _ => by omega⟩

/-- What one byte loop does to the record scan. -/
structure DriveSpec (q : machine.Q) (position room endsRoom : Nat) (input rest : List UInt8)
    (call : RecordCall machine.State) : Prop where
  taken : call.nin ≤ input.length
  output : call.output.length ≤ room
  ends : call.ends.length ≤ endsRoom
  notEnd : call.result ≠ .atEnd
  unfinished : call.result ≠ .record →
    machine.scanFrom q position (input ++ rest) =
      (machine.scanFrom call.state.q call.state.outputPos ((input ++ rest).drop call.nin)).map
        (extend call.nin call.output call.ends) ∧
    call.output.length ≤ call.nin ∧ call.ends.length ≤ call.nin
  inputEmpty : call.result = .inputEmpty → call.nin = input.length
  outputFull : call.result = .outputFull → call.output.length = room ∧ call.nin < input.length
  endsFull : call.result = .outputEndsFull → call.ends.length = endsRoom
  record : call.result = .record →
    machine.scanFrom q position (input ++ rest) = some ⟨call.output, call.ends, call.nin⟩ ∧
    call.state.q = machine.start ∧ call.state.outputPos = 0

private theorem drive_spec (q : machine.Q) (position line room endsRoom : Nat)
    (input rest : List UInt8) :
    DriveSpec q position room endsRoom input rest
      (machine.drive q position line room endsRoom input) := by
  induction input generalizing q position line room endsRoom with
  | nil => constructor <;> simp [drive, extend_nothing]
  | cons byte input ih =>
    by_cases noRoom : room = 0
    · constructor <;> simp [drive, noRoom, extend_nothing]
    by_cases noEnds : endsRoom = 0
    · constructor <;> simp [drive, noRoom, noEnds, extend_nothing]
    obtain ⟨move, moves⟩ : ∃ move, machine.step q byte = move := ⟨_, rfl⟩
    have oneByte := emitted_length move byte
    by_cases ended : move.mark = .record
    · constructor <;> simp [drive, noRoom, noEnds, moves, ended, scanFrom] <;> omega
    · have oneEnd := fieldEnds_length move (position + (machine.emitted move byte).length)
      obtain ⟨taken, output, ends, notEnd, unfinished, inputEmpty, outputFull, endsFull, record⟩ :=
        ih move.next (position + (machine.emitted move byte).length) (nextLine line byte)
          (room - (machine.emitted move byte).length)
          (endsRoom - (machine.fieldEnds move
            (position + (machine.emitted move byte).length)).length)
      constructor <;> simp only [drive, noRoom, noEnds, moves, ended, if_false, scanFrom,
        List.cons_append, List.length_append, List.length_cons]
      · omega
      · omega
      · omega
      · exact notEnd
      · intro result
        obtain ⟨scanned, outputPerByte, endsPerByte⟩ := unfinished result
        refine ⟨?_, by omega, by omega⟩
        rw [scanned, Option.map_map, Nat.add_comm 1, List.drop_succ_cons]
        congr 1
        funext parsed
        rw [Function.comp, extend_extend, Nat.add_comm]
      · intro result
        have whole := inputEmpty result
        omega
      · intro result
        obtain ⟨full, more⟩ := outputFull result
        omega
      · intro result
        have full := endsFull result
        omega
      · intro result
        obtain ⟨scanned, state, zero⟩ := record result
        exact ⟨by rw [scanned]; rfl, state, zero⟩

/-- The machine has taken `taken` bytes of the record that starts `text`. -/
def Inside (state : machine.State) (text : List UInt8) (taken : Nat) (output : List UInt8)
    (ends : List Nat) : Prop :=
  taken ≤ text.length ∧
  machine.scanFrom machine.start 0 text =
    (machine.scanFrom state.q state.outputPos (text.drop taken)).map (extend taken output ends)

private theorem inside_boundary {state : machine.State} (atStart : state.q = machine.start)
    (zero : state.outputPos = 0) (text : List UInt8) : Inside state text 0 [] [] :=
  ⟨Nat.zero_le _, by simp [extend_nothing, atStart, zero]⟩

/-- The specification of a call that is given some input. -/
private theorem readRecord_spec (state : machine.State) (feeds : Feeds text taken (byte :: input)) :
    ∃ rest, text.drop taken = (byte :: input) ++ rest ∧
      DriveSpec state.q state.outputPos room endsRoom (byte :: input) rest
        (machine.readRecord state (byte :: input) room endsRoom) := by
  obtain ⟨rest, same⟩ := feeds.ofText
  refine ⟨rest, same.symm, ?_⟩
  have driven : machine.readRecord state (byte :: input) room endsRoom =
      machine.drive state.q state.outputPos state.line room endsRoom (byte :: input) := by
    simp [readRecord]
  rw [driven]
  exact drive_spec ..

private theorem inside_after {state : machine.State}
    (inside : Inside state text taken output ends) (split : text.drop taken = input ++ rest)
    (within : nin ≤ input.length)
    (scanned : machine.scanFrom state.q state.outputPos (input ++ rest) =
      (machine.scanFrom next.q next.outputPos ((input ++ rest).drop nin)).map
        (extend nin moreOutput moreEnds)) :
    Inside next text (taken + nin) (output ++ moreOutput) (ends ++ moreEnds) := by
  obtain ⟨bound, same⟩ := inside
  have room := congrArg List.length split
  rw [List.length_drop, List.length_append] at room
  refine ⟨by omega, ?_⟩
  rw [same, split, scanned, Option.map_map, ← List.drop_drop, split]
  congr 1
  funext parsed
  exact extend_extend ..

/-- Every record machine meets the parser contract. -/
def contract (machine : RecordMachine) : machine.core.Contract where
  scan := machine.scanFrom machine.start 0
  Inside := Inside
  scan_span := by
    intro text parsed found
    obtain ⟨upper, lower⟩ := scanFrom_span found
    refine ⟨lower ?_, upper⟩
    intro empty
    subst empty
    simp [scanFrom, machine.start_open] at found
  start_inside := fun text => inside_boundary rfl rfl text
  reset_inside := fun _ text => inside_boundary rfl rfl text
  setLine_inside := fun _ inside => inside
  inside_span := by
    intro state text taken output ends parsed inside found
    rw [inside.2] at found
    obtain ⟨later, _, same⟩ := Option.map_eq_some_iff.mp found
    subst same
    simp [extend]
  call_bounds := by
    intro state text taken output ends input room endsRoom inside feeds
    cases input with
    | nil =>
      simp only [core, readRecord, if_true]
      split
      · split <;> simp
        omega
      · simp
    | cons byte input =>
      obtain ⟨rest, _, spec⟩ := readRecord_spec state feeds
      exact ⟨spec.taken, spec.output, spec.ends⟩
  call_unfinished := by
    intro state text taken output ends input room endsRoom inside feeds call notRecord notEnd
    cases input with
    | nil =>
      simp only [call, core, readRecord, if_true] at notRecord notEnd ⊢
      split at notRecord
      · split at notRecord
        · rename_i closes full
          simpa [closes, full] using inside
        · exact False.elim (notRecord rfl)
      · rename_i opened
        simp [opened] at notEnd
    | cons byte input =>
      obtain ⟨rest, split, spec⟩ := readRecord_spec state feeds
      obtain ⟨scanned, outputPerByte, endsPerByte⟩ := spec.unfinished notRecord
      exact ⟨inside_after inside split spec.taken scanned, outputPerByte, endsPerByte⟩
  call_inputEmpty := by
    intro state text taken output ends input room endsRoom inside feeds call asks
    cases input with
    | nil =>
      simp only [call, core, readRecord, if_true] at asks
      split at asks
      · split at asks <;> cases asks
      · cases asks
    | cons byte input =>
      obtain ⟨rest, _, spec⟩ := readRecord_spec state feeds
      exact ⟨List.cons_ne_nil _ _, spec.inputEmpty asks⟩
  call_outputFull := by
    intro state text taken output ends input room endsRoom inside feeds call asks
    cases input with
    | nil =>
      simp only [call, core, readRecord, if_true] at asks
      split at asks
      · split at asks <;> cases asks
      · cases asks
    | cons byte input =>
      obtain ⟨rest, split, spec⟩ := readRecord_spec state feeds
      obtain ⟨full, more⟩ := spec.outputFull asks
      refine ⟨full, fun parsed found => ?_⟩
      change call.nin < (byte :: input).length at more
      have notRecord : call.result ≠ .record := by simp [asks]
      obtain ⟨_, later⟩ := inside_after inside split spec.taken (spec.unfinished notRecord).1
      rw [found, ← List.drop_drop, split] at later
      obtain ⟨tail, scanned, same⟩ := Option.map_eq_some_iff.mp later.symm
      have positive := (scanFrom_span scanned).2 (by
        intro empty
        have size := congrArg List.length empty
        rw [List.length_drop, List.length_append, List.length_nil] at size
        change (byte :: input).length + rest.length - call.nin = 0 at size
        omega)
      rw [← same]
      change taken + call.nin < taken + call.nin + tail.span
      omega
  call_outputEndsFull := by
    intro state text taken output ends input room endsRoom inside feeds call asks
    cases input with
    | nil =>
      simp only [call, core, readRecord, if_true] at asks ⊢
      split at asks
      · split at asks
        · rename_i closes full
          simp [closes, full]
        · cases asks
      · cases asks
    | cons byte input =>
      obtain ⟨rest, _, spec⟩ := readRecord_spec state feeds
      exact spec.endsFull asks
  call_record := by
    intro state text taken output ends input room endsRoom inside feeds call ended
    cases input with
    | nil =>
      have exhausted := feeds.nonempty rfl
      simp only [call, core, readRecord, if_true] at ended ⊢
      split at ended
      · split at ended
        · cases ended
        · rename_i closes more
          have scanned := inside.2
          rw [exhausted] at scanned
          simp only [scanFrom, closes, if_true, Option.map_some, extend] at scanned
          simp only [closes, more, if_true, if_false]
          exact ⟨scanned, inside_boundary rfl rfl _⟩
      · cases ended
    | cons byte input =>
      obtain ⟨rest, split, spec⟩ := readRecord_spec state feeds
      obtain ⟨scanned, state', zero⟩ := spec.record ended
      refine ⟨?_, ?_⟩
      · rw [inside.2, split, scanned]
        rfl
      · exact inside_boundary state' zero _
  call_atEnd := by
    intro state text taken output ends input room endsRoom inside feeds call ended
    cases input with
    | nil =>
      have exhausted := feeds.nonempty rfl
      simp only [call, core, readRecord, if_true] at ended ⊢
      split at ended
      · split at ended <;> cases ended
      · rename_i opened
        have scanned := inside.2
        rw [exhausted] at scanned
        have bound := inside.1
        have short := congrArg List.length exhausted
        rw [List.length_drop, List.length_nil] at short
        simp only [opened, Bool.false_eq_true, if_false]
        refine ⟨by simpa [scanFrom, opened] using scanned, by omega, inside_boundary rfl rfl _⟩
    | cons byte input =>
      obtain ⟨rest, _, spec⟩ := readRecord_spec state feeds
      exact False.elim (spec.notEnd ended)

end RecordMachine

namespace Delimited

/-- States of the CSV grammar between two bytes. -/
inductive CsvState where
  | startRecord
  | startField
  | inField
  | inQuotedField
  | inEscapedQuote
  | inDoubleEscapedQuote
  deriving DecidableEq, Repr

def isTerminator (byte : UInt8) : Bool := byte == 13 || byte == 10

/-- A byte that is not quoted: delimiter, terminator, or content. -/
def plainMove (settings : CoreSettings) (byte : UInt8) : Move CsvState :=
  if byte = settings.delimiter then ⟨.startField, false, .field⟩
  else if isTerminator byte then ⟨.startRecord, false, .record⟩
  else ⟨.inField, true, .inside⟩

def startFieldMove (settings : CoreSettings) (byte : UInt8) : Move CsvState :=
  if byte = settings.quote then ⟨.inQuotedField, false, .inside⟩ else plainMove settings byte

def csvMove (settings : CoreSettings) (state : CsvState) (byte : UInt8) : Move CsvState :=
  match state with
  | .startRecord =>
    if isTerminator byte then ⟨.startRecord, false, .inside⟩ else startFieldMove settings byte
  | .startField => startFieldMove settings byte
  | .inField => plainMove settings byte
  | .inQuotedField =>
    if byte = settings.quote then ⟨.inDoubleEscapedQuote, false, .inside⟩
    else if settings.escape = some byte then ⟨.inEscapedQuote, false, .inside⟩
    else ⟨.inQuotedField, true, .inside⟩
  | .inEscapedQuote => ⟨.inQuotedField, true, .inside⟩
  | .inDoubleEscapedQuote =>
    if settings.doubleQuote = true ∧ byte = settings.quote then ⟨.inQuotedField, true, .inside⟩
    else plainMove settings byte

/-- The CSV grammar of a dialect: `\r` and `\n` both end a record, and blank
lines belong to the record behind them. -/
def csvMachine (settings : CoreSettings) : RecordMachine where
  Q := CsvState
  start := .startRecord
  step := csvMove settings
  closes := fun state => state != .startRecord
  start_open := rfl

end Delimited

end OxideBatch.Item
