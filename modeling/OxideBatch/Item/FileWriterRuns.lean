import Mathlib
import OxideBatch.Item.FileWriterSpec

/-! Whole runs of a file writer: attempts that open, write, update, and close, restarts
from the state of an earlier update, and what the file holds all along. -/

namespace OxideBatch.Item

open OxideBatch.Core Triple

inductive Phase where
  | idle
  | running
  | finished (outcome : StreamRuntimeOutcome)
  deriving DecidableEq, Repr

/-- A state that `update` has returned, with the batches written up to it. -/
structure Saved (Item Position : Type) where
  position : Position
  history : List (List Item)

/-- One file over all attempts. `history` lists the batches whose write returned
`Written` along the restored history. -/
structure World (Item Position : Type) where
  state : WriterState
  phase : Phase
  history : List (List Item)
  saved : List (Saved Item Position)

/-- What is called next; a restart opens with the state of an update, by its index. -/
inductive Event (Item : Type) where
  | restart (inherited : Option Nat)
  | write (items : List Item) (stopRequested : Bool)
  | update
  | close (outcome : StreamRuntimeOutcome)

variable {Item Position : Type}

/-- A file that some earlier program may have left, before the first attempt. -/
def World.initial (bytes : List UInt8) (plan : Nat → Option Nat) : World Item Position :=
  ⟨⟨⟨bytes, 0, plan, 0⟩, 0, 0⟩, .idle, [], []⟩

/-- The shared state of a new process: a new handle at the start of the file. -/
def World.reopened (world : World Item Position) : WriterState :=
  ⟨{ world.state.file with cursor := 0 }, 0, 0⟩

/-- A new attempt over `history`. It runs when the stream opens. -/
def attempt (writer : FileWriter Item Position) (world : World Item Position)
    (inherited : Option Position) (history : List (List Item)) : World Item Position :=
  match runs (writer.openStream inherited) world.reopened with
  | (.ok _, state) => { world with state, phase := .running, history }
  | (.error _, state) => { world with state, phase := .idle, history }

/-- One call; `none` when there is no attempt for it or no such state. -/
def perform (writer : FileWriter Item Position) (world : World Item Position) :
    Event Item → Option (World Item Position)
  | .restart none => some (attempt writer world none [])
  | .restart (some index) =>
    world.saved[index]?.map fun saved =>
      attempt writer world (some saved.position) saved.history
  | .write items stopRequested =>
    if world.phase = .running then
      match runs (writer.write items stopRequested) world.state with
      | (.ok .written, state) => some { world with state, history := world.history ++ [items] }
      | (.ok .stopped, state) => some { world with state }
      | (.error _, state) => some { world with state }
    else none
  | .update =>
    if world.phase = .running then
      some { world with saved := world.saved ++ [⟨writer.update world.state, world.history⟩] }
    else none
  | .close outcome =>
    if world.phase = .running then
      match runs (writer.close outcome) world.state with
      | (.ok _, state) => some { world with state, phase := .finished outcome }
      | (.error _, state) => some { world with state, phase := .idle }
    else none

/-- The runs whose steps all satisfy `allowed`. -/
inductive Runs (writer : FileWriter Item Position)
    (allowed : World Item Position → Event Item → Prop) (first : World Item Position) :
    World Item Position → Prop
  | start : Runs writer allowed first first
  | next {before after : World Item Position} {event : Event Item}
      (earlier : Runs writer allowed first before) (meets : allowed before event)
      (performed : perform writer before event = some after) : Runs writer allowed first after

/-- No byte of a failed write is left behind the committed ones. -/
def Clean (world : World Item Position) : Prop :=
  world.state.file.bytes.length = world.state.committedBytes

/-- Writes, and closes that add punctuation, happen on a clean file; a restart takes a
state that no other restart has abandoned. -/
def Meets (closing : List UInt8) (world : World Item Position) : Event Item → Prop
  | .write _ _ => Clean world
  | .close outcome => outcome = .committed → closing ≠ [] → Clean world
  | .restart (some index) =>
    ∀ saved, world.saved[index]? = some saved → saved.history <+: world.history
  | .restart none => True
  | .update => True

section Invariant

variable {writer : FileWriter Item Position} {text : List (List Item) → List UInt8}
  {count : List (List Item) → Nat} {position : List (List Item) → Position}
  {closing : List UInt8} {world after : World Item Position}

/-- What holds between any two calls. -/
structure Sound (text : List (List Item) → List UInt8) (count : List (List Item) → Nat)
    (position : List (List Item) → Position) (closing : List UInt8)
    (world : World Item Position) : Prop where
  positions : ∀ saved ∈ world.saved, saved.position = position saved.history
  running : world.phase = .running → ∃ part, Carries text count world.history part world.state
  backed : ∀ saved ∈ world.saved, saved.history <+: world.history →
    text saved.history <+: world.state.file.bytes ∨
      world.state.file.bytes.length < (text saved.history).length
  finished : ∀ outcome, world.phase = .finished outcome →
    text world.history <+: world.state.file.bytes ∧
      world.state.committedBytes = (text world.history).length ∧
      (outcome = .committed → closing ≠ [] →
        world.state.file.bytes = text world.history ++ closing)

private theorem text_starts (exact : Exact writer text count position closing)
    {history longer : List (List Item)} (within : history <+: longer) :
    text history <+: text longer := by
  obtain ⟨rest, rfl⟩ := within
  induction rest using List.reverseRecOn with
  | nil => simp only [List.append_nil, List.prefix_rfl]
  | append_singleton rest batch ih =>
    rw [← List.append_assoc]
    exact ih.trans (exact.grows _ batch)

/-- A file that starts with the text of the history backs every state along it. -/
private theorem backed_of_starts (exact : Exact writer text count position closing)
    {history : List (List Item)} {bytes : List UInt8} (starts : text history <+: bytes)
    (saved : Saved Item Position) (along : saved.history <+: history) :
    text saved.history <+: bytes ∨ bytes.length < (text saved.history).length :=
  .inl ((text_starts exact along).trans starts)

theorem Carries.starts {history : List (List Item)} {part : List UInt8} {state : WriterState}
    (carries : Carries text count history part state) : text history <+: state.file.bytes := by
  rw [carries.content]
  exact List.prefix_append _ _

theorem Carries.clean {part : List UInt8} (clean : Clean world)
    (carries : Carries text count world.history part world.state) : part = [] := by
  have lengths := clean
  rw [Clean, carries.content, carries.length, List.length_append] at lengths
  exact List.eq_nil_of_length_eq_zero (by omega)

theorem Sound.initial (bytes : List UInt8) (plan : Nat → Option Nat) :
    Sound text count position closing (World.initial bytes plan : World Item Position) where
  positions saved member := by cases member
  running phase := by cases phase
  backed saved member := by cases member
  finished outcome phase := by cases phase

/-- An attempt that opens restores its history; one that does not leaves a file that
still backs the states along it. -/
theorem Sound.attempt (sound : Sound text count position closing world)
    {inherited : Option Position} {history : List (List Item)}
    (opens : Leaves (fun _ => Carries text count history [])
      (fun _ state => ∀ saved ∈ world.saved, saved.history <+: history →
        text saved.history <+: state.file.bytes ∨
          state.file.bytes.length < (text saved.history).length)
      (runs (writer.openStream inherited) world.reopened))
    (exact : Exact writer text count position closing) :
    Sound text count position closing (attempt writer world inherited history) := by
  unfold OxideBatch.Item.attempt
  rcases result : runs (writer.openStream inherited) world.reopened with ⟨failure | outcome, state⟩
  all_goals rw [result] at opens
  · exact
      { positions := sound.positions
        running := fun phase => by cases phase
        backed := opens
        finished := fun _ phase => by cases phase }
  · exact
      { positions := sound.positions
        running := fun _ => ⟨[], opens⟩
        backed := fun saved _ along => backed_of_starts exact opens.starts saved along
        finished := fun _ phase => by cases phase }

theorem Sound.restart_initial (exact : Exact writer text count position closing)
    (sound : Sound text count position closing world) :
    Sound text count position closing (OxideBatch.Item.attempt writer world none []) := by
  apply sound.attempt _ exact
  have opened := exact.initial world.state.file.bytes world.reopened ⟨rfl, rfl⟩
  rcases result : runs (writer.openStream none) world.reopened with ⟨failure | outcome, state⟩
  all_goals rw [result] at opened
  · intro saved member along
    have none : saved.history = [] := List.prefix_nil.mp along
    rcases opened with same | short
    · rw [same]
      exact sound.backed saved member (by rw [none]; exact List.nil_prefix)
    · rw [none]
      rcases Nat.lt_or_ge state.file.bytes.length (text []).length with less | enough
      · exact .inr less
      · exact .inl (by simp only [short.eq_of_length_le enough, List.prefix_rfl])
  · exact opened

theorem Sound.restart_saved (exact : Exact writer text count position closing)
    (sound : Sound text count position closing world) {saved : Saved Item Position}
    (member : saved ∈ world.saved) (along : saved.history <+: world.history) :
    Sound text count position closing
      (OxideBatch.Item.attempt writer world (some saved.position) saved.history) := by
  apply sound.attempt _ exact
  rw [sound.positions saved member]
  have opened := exact.restored saved.history world.state.file.bytes
    (sound.backed saved member along) world.reopened ⟨rfl, rfl⟩
  rcases result : runs (writer.openStream (some (position saved.history))) world.reopened with
    ⟨failure | outcome, state⟩
  all_goals rw [result] at opened
  · intro other among earlier
    rcases opened with same | cut
    · rw [same]
      exact sound.backed other among (earlier.trans along)
    · rw [cut]
      exact .inl (text_starts exact earlier)
  · exact opened

/-- One call that meets the condition keeps the invariant. -/
theorem Sound.perform (exact : Exact writer text count position closing)
    (sound : Sound text count position closing world) {event : Event Item}
    (meets : Meets closing world event) (performed : perform writer world event = some after) :
    Sound text count position closing after := by
  cases event with
  | restart inherited =>
    cases inherited with
    | none =>
      cases performed
      exact sound.restart_initial exact
    | some index =>
      obtain ⟨saved, found, rfl⟩ := Option.map_eq_some_iff.mp performed
      exact sound.restart_saved exact (List.mem_of_getElem? found) (meets saved found)
  | write items stopRequested =>
    simp only [OxideBatch.Item.perform] at performed
    split at performed
    · next running =>
      obtain ⟨part, carries⟩ := sound.running running
      rw [carries.clean meets] at carries
      have wrote := exact.write world.history items stopRequested world.state carries
      have kept : ∀ (state : WriterState) (history : List (List Item)) (part : List UInt8),
          Carries text count history part state →
          Sound text count position closing { world with state, history } := by
        intro state history part carries
        exact
          { positions := sound.positions
            running := fun _ => ⟨part, carries⟩
            backed := fun saved _ along => backed_of_starts exact carries.starts saved along
            finished := fun outcome phase => by
              rw [show world.phase = .finished outcome from phase] at running
              cases running }
      rcases result : runs (writer.write items stopRequested) world.state with
        ⟨failure | outcome, state⟩
      · rw [result] at wrote performed
        obtain ⟨part, carries⟩ := wrote
        cases performed
        exact kept state world.history part carries
      · rw [result] at wrote performed
        rcases wrote with ⟨rfl, carries⟩ | ⟨rfl, carries⟩
        · cases performed
          exact kept state world.history [] carries
        · cases performed
          exact kept state _ [] carries
    · cases performed
  | update =>
    simp only [OxideBatch.Item.perform] at performed
    split at performed
    · next running =>
      cases performed
      obtain ⟨part, carries⟩ := sound.running running
      refine ⟨?_, sound.running, ?_, sound.finished⟩
      · intro saved member
        rcases List.mem_append.mp member with old | new
        · exact sound.positions saved old
        · rw [List.mem_singleton.mp new]
          exact exact.update _ part _ carries
      · intro saved _ along
        exact backed_of_starts exact carries.starts saved along
    · cases performed
  | close outcome =>
    simp only [OxideBatch.Item.perform] at performed
    split at performed
    · next running =>
      obtain ⟨part, carries⟩ := sound.running running
      have closed : Leaves (fun _ state => text world.history <+: state.file.bytes ∧
            state.committedBytes = (text world.history).length ∧ (outcome = .committed →
              closing ≠ [] → state.file.bytes = text world.history ++ closing))
          (fun _ state => text world.history <+: state.file.bytes)
          (runs (writer.close outcome) world.state) := by
        by_cases punctuated : outcome = .committed ∧ closing ≠ []
        · rw [carries.clean (meets punctuated.1 punctuated.2)] at carries
          refine (exact.closes world.history outcome).weaken (fun _ holds => holds) ?_
            (fun _ _ failed => failed) world.state carries
          rintro _ state ⟨length, content⟩
          rw [content]
          exact ⟨List.prefix_append _ _, length, fun committed _ => by rw [if_pos committed]⟩
        · have plain : outcome ≠ .committed ∨ closing = [] := by tauto
          refine (exact.abandons world.history part outcome plain).weaken (fun _ holds => holds) ?_
            (fun _ _ failed => failed) world.state carries
          rintro _ state ⟨length, content⟩
          rw [content]
          exact ⟨List.prefix_append _ _, length, fun committed closes =>
            absurd ⟨committed, closes⟩ punctuated⟩
      rcases result : runs (writer.close outcome) world.state with ⟨failure | _, state⟩
      · rw [result] at closed performed
        cases performed
        exact
          { positions := sound.positions
            running := fun phase => by cases phase
            backed := fun saved _ along => backed_of_starts exact closed saved along
            finished := fun _ phase => by cases phase }
      · rw [result] at closed performed
        cases performed
        exact
          { positions := sound.positions
            running := fun phase => by cases phase
            backed := fun saved _ along => backed_of_starts exact closed.1 saved along
            finished := fun _ phase => by
              cases phase
              exact closed }
    · cases performed

theorem Sound.of_runs (exact : Exact writer text count position closing) {bytes : List UInt8}
    {plan : Nat → Option Nat}
    (run : Runs writer (Meets closing) (World.initial bytes plan) world) :
    Sound text count position closing world := by
  induction run with
  | start => exact Sound.initial bytes plan
  | next _ meets performed ih => exact ih.perform exact meets performed

end Invariant

section Main

/-- The committed bytes of a file are the text of the history. -/
def Commits (text : List (List Item) → List UInt8) (world : World Item Position) : Prop :=
  world.phase ≠ .idle → world.state.file.bytes.take world.state.committedBytes = text world.history

theorem Sound.commits {text : List (List Item) → List UInt8} {count : List (List Item) → Nat}
    {position : List (List Item) → Position} {closing : List UInt8} {world : World Item Position}
    (sound : Sound text count position closing world) : Commits text world := by
  intro busy
  cases phase : world.phase with
  | idle => exact absurd phase busy
  | running =>
    obtain ⟨part, carries⟩ := sound.running phase
    rw [carries.length]
    exact (List.prefix_iff_eq_take.mp carries.starts).symm
  | finished outcome =>
    obtain ⟨starts, length, _⟩ := sound.finished outcome phase
    rw [length]
    exact (List.prefix_iff_eq_take.mp starts).symm

private theorem elementsText_false {Value : Type} (encode : Value → List UInt8)
    (items : List Value) :
    elementsText encode false items = comma.intercalate (items.map encode) := by
  have later : ∀ items : List Value, elementsText encode true items =
      (items.flatMap fun item => comma ++ encode item) := by
    intro items
    induction items with
    | nil => rfl
    | cons item items ih => simp [elementsText, ih]
  cases items with
  | nil => rfl
  | cons item items =>
    rw [elementsText, later, if_neg Bool.false_ne_true, List.nil_append]
    induction items generalizing item with
    | nil => simp [List.intercalate]
    | cons next items ih =>
      have rest := ih next
      simp only [List.map_cons, List.intercalate_cons_cons, List.flatMap_cons] at rest ⊢
      rw [← rest]
      simp

private theorem batchText_lines {Value : Type} (encode : Value → List UInt8)
    (terminator : JsonLinesTerminator) (history : List (List Value)) :
    batchText (linesText encode terminator) history =
      history.flatten.flatMap fun item => encode item ++ terminator.bytes := by
  induction history with
  | nil => rfl
  | cons batch history ih =>
    rw [List.flatten_cons, List.flatMap_append, ← ih]
    rfl

/-- In every run whose writes and punctuating closes find no bytes of a failed write and
whose restarts take states that were not abandoned, the committed bytes of each of the four
files are the text of the batches written along the restored history, and a closed array is
a single array of exactly their items. -/
theorem file_writers_commit_prefixes (bytes : List UInt8) (plan : Nat → Option Nat) :
    (∀ (Value : Type) (encode : Value → List UInt8) (world : World Value WriterPosition),
      Runs (jsonArrayWriter encode) (Meets rightBracket) (World.initial bytes plan) world →
      Commits (fun history => leftBracket ++ comma.intercalate (history.flatten.map encode)) world ∧
      (world.phase = .finished .committed → world.state.file.bytes =
        leftBracket ++ comma.intercalate (world.history.flatten.map encode) ++ rightBracket)) ∧
    (∀ (Value : Type) (encode : Value → List UInt8) (terminator : JsonLinesTerminator)
      (world : World Value Nat),
      Runs (jsonLinesWriter encode terminator) (Meets []) (World.initial bytes plan) world →
      Commits (fun history => history.flatten.flatMap fun item =>
        encode item ++ terminator.bytes) world) ∧
    (∀ (csv : List (List String) → Option (List UInt8))
      (world : World Delimited.DelimitedRecord Nat),
      Runs (delimitedWriter csv) (Meets []) (World.initial bytes plan) world →
      Commits (fun history => history.flatMap fun items =>
        (csv (items.map (·.fields))).getD []) world) ∧
    (∀ (layout : FixedWidth.Layout) (world : World FixedWidth.FixedWidthRecord Nat),
      Runs (fixedWidthWriter layout) (Meets []) (World.initial bytes plan) world →
      Commits (fun history => history.flatMap fun items =>
        (encodeRecords layout items).getD []) world) := by
  refine ⟨?_, ?_, ?_, ?_⟩
  · intro Value encode world run
    have sound := Sound.of_runs (jsonArrayWriter_exact encode) run
    constructor
    · intro busy
      dsimp only
      rw [← elementsText_false]
      exact sound.commits busy
    · intro finished
      rw [← elementsText_false]
      exact (sound.finished .committed finished).2.2 rfl (by decide)
  · intro Value encode terminator world run
    have sound := Sound.of_runs (jsonLinesWriter_exact encode terminator) run
    intro busy
    rw [sound.commits busy, batchText_lines]
  · exact fun csv world run =>
      (Sound.of_runs (delimitedWriter_exact csv) run).commits
  · exact fun layout world run =>
      (Sound.of_runs (fixedWidthWriter_exact layout) run).commits

/-- Two values of two and one digits. -/
def digits (value : Bool) : List UInt8 := if value then [49, 50] else [48]

/-- The world after some calls, all of which are made. -/
def after (plan : Nat → Option Nat) (events : List (Event Bool)) : World Bool WriterPosition :=
  (events.foldlM (perform (jsonArrayWriter digits)) (World.initial [] plan)).getD
    (World.initial [] plan)

private theorem runs_after (plan : Nat → Option Nat)
    (allowed : World Bool WriterPosition → Event Bool → Prop) (events : List (Event Bool))
    (event : Event Bool)
    (earlier : Runs (jsonArrayWriter digits) allowed (World.initial [] plan) (after plan events))
    (meets : allowed (after plan events) event)
    (made : perform (jsonArrayWriter digits) (after plan events) event =
      some (after plan (events ++ [event]))) :
    Runs (jsonArrayWriter digits) allowed (World.initial [] plan) (after plan (events ++ [event])) :=
  .next earlier meets made

/-- The tenth file call fails before it writes anything: by then the comma of a second
batch is in the file. -/
def secondFails (call : Nat) : Option Nat := if call = 9 then some 0 else none

/-- A batch is committed, the next one fails, and a restart from the state of the update
writes another one and closes. -/
theorem file_writers_commit_resumed :
    ∃ world : World Bool WriterPosition, world.phase = .finished .committed ∧
      world.history = [[true], [false]] ∧ world.state.file.bytes = [91, 49, 50, 44, 48, 93] := by
  have opened := runs_after secondFails (Meets rightBracket) [] (.restart none) .start trivial rfl
  have first := runs_after _ _ _ (.write [true] false) opened (by rfl) rfl
  have updated := runs_after _ _ _ .update first trivial rfl
  have failed := runs_after _ _ _ (.write [false, true] false) updated (by rfl) rfl
  have resumed := runs_after _ _ _ (.restart (some 0)) failed (by
    intro saved found
    cases found
    exact List.prefix_rfl) rfl
  have second := runs_after _ _ _ (.write [false] false) resumed (by rfl) rfl
  have closed := runs_after _ _ _ (.close .committed) second (fun _ _ => by rfl) rfl
  have bytes := ((file_writers_commit_prefixes [] secondFails).1 Bool digits _ closed).2 rfl
  refine Exists.intro _ ⟨?_, ?_, bytes⟩
  · rfl
  · rfl

/-- The sixth file call fails after one byte of the first batch. -/
def firstFails (call : Nat) : Option Nat := if call = 5 then some 1 else none

/-- A write that is tried again after a failure commits the bytes of the failure. -/
theorem retried_write_commits_rubbish :
    ¬ ∀ (Value : Type) (encode : Value → List UInt8) (bytes : List UInt8)
      (plan : Nat → Option Nat) (world : World Value WriterPosition),
      Runs (jsonArrayWriter encode) (fun _ _ => True) (World.initial bytes plan) world →
      Commits (fun history => leftBracket ++ comma.intercalate (history.flatten.map encode)) world ∧
      (world.phase = .finished .committed → world.state.file.bytes =
        leftBracket ++ comma.intercalate (world.history.flatten.map encode) ++ rightBracket) := by
  intro exact
  have opened := runs_after firstFails (fun _ _ => True) [] (.restart none) .start trivial rfl
  have failed := runs_after _ _ _ (.write [true] false) opened trivial rfl
  have retried := runs_after _ _ _ (.write [true] false) failed trivial rfl
  have committed := (exact Bool digits [] firstFails _ retried).1 (by decide)
  exact absurd committed (by decide)

end Main

end OxideBatch.Item
