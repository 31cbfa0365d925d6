import OxideBatch.Item.FixedWidthFaults
import OxideBatch.Lib.Framing

/-! The line specification of the fixed-width reader, the one kind of line it departs from,
and the bound on its line buffer. -/

namespace OxideBatch.Item.FixedWidth

open OxideBatch.Core
open OxideBatch.Item.Delimited (malformed fromUtf8)
open OxideBatch.Item.JsonLines (copyBounded lf cr firstLine boundary line_cases specLines splitLines
  splitLines_boundary splitLines_first dropTerminatorCr dropTerminatorCr_of_not_last
  firstLine_terminated firstLine_unterminated)

section Spec

/-- The declared byte spans of a line. -/
def spans : List UInt8 → List Field → List (List UInt8)
  | _, [] => []
  | bytes, field :: fields => bytes.take field.width :: spans (bytes.drop field.width) fields

/-- What a line is worth: its spans as fields when it has the declared width within the
bound and every span is UTF-8, and else one error that moves on. -/
def lineOutcome (layout : Layout) (line : List UInt8) : Outcome :=
  if line.length = layout.recordWidth ∧ line.length ≤ layout.maxRecordBytes then
    match (spans line layout.fields).mapM fromUtf8 with
    | some fields => .ok (.item ⟨fields, layout.names⟩)
    | none => .error malformed
  else .error malformed

/-- The specified outcome of read call `index`: one for each line, and then the end of input
forever. -/
def lineSpec (layout : Layout) (bytes : List UInt8) (index : Nat) : Outcome :=
  ((specLines bytes)[index]?.map (lineOutcome layout)).getD (.ok .endOfInput)

private theorem decodeFields_spans (bytes : List UInt8) (offset : Nat) (fields : List Field) :
    decodeFields bytes offset fields = (spans (bytes.drop offset) fields).mapM fromUtf8 := by
  induction fields generalizing offset with
  | nil => rfl
  | cons field fields ih =>
    rw [decodeFields, spans, List.mapM_cons, ih, List.drop_drop]
    cases fromUtf8 ((bytes.drop offset).take field.width) with
    | none => rfl
    | some text =>
      cases (spans (bytes.drop (offset + field.width)) fields).mapM fromUtf8 <;> rfl

private theorem decodeLine_spans (layout : Layout) (line : List UInt8)
    (within : line.length ≤ layout.maxRecordBytes) :
    decodeLine layout line = lineOutcome layout line := by
  unfold decodeLine lineOutcome
  rw [decodeFields_spans, List.drop_zero]
  by_cases sized : line.length = layout.recordWidth
  · refine (if_pos sized).trans (Eq.trans ?_ (if_pos ⟨sized, within⟩).symm)
    cases (spans line layout.fields).mapM fromUtf8 <;> rfl
  · rw [if_neg sized, if_neg fun both => sized both.1]

private theorem lineOutcome_long {layout : Layout} {line : List UInt8}
    (beyond : layout.maxRecordBytes < line.length) : lineOutcome layout line = .error malformed :=
  if_neg fun both => absurd both.2 (Nat.not_le.mpr beyond)

theorem lineSpec_zero {bytes : List UInt8} (layout : Layout) (nonempty : bytes ≠ []) :
    lineSpec layout bytes 0 = lineOutcome layout (firstLine bytes).1 := by
  rw [lineSpec, specLines, splitLines_first bytes nonempty]
  rfl

theorem lineSpec_succ {bytes : List UInt8} (layout : Layout) (nonempty : bytes ≠ [])
    (index : Nat) :
    lineSpec layout bytes (index + 1) =
      lineSpec layout (bytes.drop (firstLine bytes).2) index := by
  rw [lineSpec, specLines, splitLines_first bytes nonempty]
  rfl

theorem lineSpec_nil (layout : Layout) (index : Nat) :
    lineSpec layout [] index = .ok .endOfInput := by
  simp [lineSpec, specLines, splitLines]

private theorem lineSpec_boundary (layout : Layout) (bytes : List UInt8) (index : Nat) :
    lineSpec layout bytes index = lineSpec layout (bytes.drop (boundary bytes index)) 0 := by
  have located : specLines (bytes.drop (boundary bytes index)) = (specLines bytes).drop index :=
    splitLines_boundary bytes index
  rw [lineSpec, lineSpec, located, List.getElem?_drop, Nat.add_zero]

end Spec

section Bound

/-- A line that ends in `\r\n` and whose payload, well formed, fills the declared width and the
record bound at once. -/
def FillsBound (layout : Layout) (text : List UInt8) : Prop :=
  ∃ line rest, text = line ++ cr :: lf :: rest ∧ lf ∉ line ∧
    line.length = layout.recordWidth ∧ layout.recordWidth = layout.maxRecordBytes ∧
    ((spans line layout.fields).mapM fromUtf8).isSome

/-- Such a line is the only one whose reported outcome is not the specified one: its `\r`
counts towards the bound. -/
private theorem specRecord_eq_iff (layout : Layout) (text : List UInt8) :
    specRecord layout text = lineSpec layout text 0 ↔ ¬ FillsBound layout text := by
  by_cases empty : text = []
  · subst empty
    have none : ¬ FillsBound layout [] := by
      rintro ⟨line, rest, same, _⟩
      simp at same
    simp [none, specRecord, expectedLine, lineSpec_nil]
  rw [lineSpec_zero layout empty]
  rcases line_cases text with noLf | ⟨body, rest, split, noLf⟩
  · have none : ¬ FillsBound layout text := by
      rintro ⟨line, rest, same, _⟩
      exact noLf lf (by simp [same]) rfl
    have whole : text.takeWhile (· != lf) = text :=
      List.takeWhile_eq_self_iff.mpr (by simpa using noLf)
    rw [specRecord, expectedLine, if_neg empty, whole, firstLine_unterminated noLf]
    by_cases beyond : layout.maxRecordBytes < text.length
    · simp [beyond, none, lineOutcome_long beyond]
    · simp [beyond, none, decodeLine_spans layout text (Nat.not_lt.mp beyond)]
  · have before : text.takeWhile (· != lf) = body := by
      rw [split, List.takeWhile_append_of_pos (by simpa using noLf)]
      simp
    rw [specRecord, expectedLine, if_neg empty, before, split, firstLine_terminated noLf]
    by_cases last : body.getLast? = some cr
    · obtain ⟨line, rfl⟩ := List.getLast?_eq_some_iff.mp last
      have payload : dropTerminatorCr (line ++ [cr]) = line := by simp [dropTerminatorCr]
      have clear : lf ∉ line := fun member => noLf lf (by simp [member]) rfl
      -- the line that fills the bound can only be this one
      have fills : FillsBound layout (line ++ [cr] ++ lf :: rest) ↔
          line.length = layout.recordWidth ∧ layout.recordWidth = layout.maxRecordBytes ∧
            ((spans line layout.fields).mapM fromUtf8).isSome := by
        constructor
        · rintro ⟨other, behind, same, absent, sized⟩
          have shape : line ++ [cr] ++ lf :: rest = (other ++ [cr]) ++ lf :: behind := by
            rw [same, List.append_assoc, List.singleton_append]
          have bodies := (Lib.terminated_inj (fun member => noLf lf member rfl)
            (by simpa [lf, cr] using absent) shape).1
          rw [List.append_cancel_right bodies]
          exact sized
        · intro sized
          exact ⟨line, rest, by simp, clear, sized⟩
      rw [payload, fills, List.length_append, List.length_singleton]
      by_cases beyond : layout.maxRecordBytes < line.length
      · have counted : layout.maxRecordBytes < line.length + 1 := by omega
        simp only [counted, if_true, lineOutcome_long beyond, true_iff]
        omega
      · by_cases edge : layout.maxRecordBytes < line.length + 1
        · simp only [edge, if_true, lineOutcome]
          by_cases sized : line.length = layout.recordWidth
          · have full : layout.recordWidth = layout.maxRecordBytes := by omega
            simp only [sized, full, le_refl, and_self, if_true, true_and]
            cases (spans line layout.fields).mapM fromUtf8 with
            | none => simp
            | some fields => simp
          · simp [sized]
        · have inside : ¬ (line.length = layout.recordWidth ∧
              layout.recordWidth = layout.maxRecordBytes ∧
              ((spans line layout.fields).mapM fromUtf8).isSome) := by omega
          simp only [edge, if_false, inside, not_false_eq_true, iff_true]
          exact decodeLine_spans layout line (by omega)
    · have none : ¬ FillsBound layout (body ++ lf :: rest) := by
        rintro ⟨line, behind, same, absent, _⟩
        have shape : body ++ lf :: rest = (line ++ [cr]) ++ lf :: behind := by
          rw [same, List.append_assoc, List.singleton_append]
        have bodies := (Lib.terminated_inj (fun member => noLf lf member rfl)
          (by simpa [lf, cr] using absent) shape).1
        exact last (by rw [bodies]; simp)
      rw [dropTerminatorCr_of_not_last last]
      by_cases beyond : layout.maxRecordBytes < body.length
      · simp [beyond, none, lineOutcome_long beyond]
      · simp [beyond, none, decodeLine_spans layout body (Nat.not_lt.mp beyond)]

end Bound

section Starts

private theorem boundary_succ_front (bytes : List UInt8) (index : Nat) :
    boundary bytes (index + 1) =
      (firstLine bytes).2 + boundary (bytes.drop (firstLine bytes).2) index := by
  induction index with
  | zero => simp [boundary]
  | succ index ih => rw [boundary, ih, ← List.drop_drop, boundary, Nat.add_assoc]

/-- A place where a line may start: the source's start, or behind a terminator. -/
def LineStart (front : List UInt8) : Prop := front = [] ∨ front.getLast? = some lf

/-- Every line start is the boundary of some record. -/
private theorem boundary_of_lineStart {front : List UInt8} (rest : List UInt8)
    (starts : LineStart front) :
    ∃ index, boundary (front ++ rest) index = front.length := by
  induction size : front.length using Nat.strongRecOn generalizing front with
  | ind length ih =>
    subst size
    rcases starts with rfl | last
    · exact ⟨0, rfl⟩
    rcases line_cases front with noLf | ⟨body, later, rfl, noLf⟩
    · exact absurd rfl (noLf lf (List.mem_of_getLast? last))
    have starts : LineStart later := by
      cases later with
      | nil => exact .inl rfl
      | cons byte tail =>
        right
        rw [← last, List.getLast?_append_of_ne_nil _ (by simp), List.getLast?_cons_cons]
    obtain ⟨index, reached⟩ := ih later.length (by simp; omega) starts rfl
    refine ⟨index + 1, ?_⟩
    have shape : body ++ lf :: later ++ rest = body ++ lf :: (later ++ rest) := by simp
    have behind : (body ++ lf :: (later ++ rest)).drop (body.length + 1) = later ++ rest := by
      rw [← List.drop_drop, List.drop_left]
      rfl
    rw [shape, boundary_succ_front, firstLine_terminated noLf, behind, reached]
    simp
    omega

/-- A boundary with bytes behind it is a line start. -/
private theorem lineStart_of_boundary {bytes : List UInt8} {index : Nat}
    (remains : bytes.drop (boundary bytes index) ≠ []) :
    LineStart (bytes.take (boundary bytes index)) := by
  cases index with
  | zero => exact .inl rfl
  | succ index =>
    rw [boundary] at remains ⊢
    obtain ⟨text, same⟩ : ∃ text, bytes.drop (boundary bytes index) = text := ⟨_, rfl⟩
    rw [← List.drop_drop, same] at remains
    rw [same]
    right
    rcases line_cases text with noLf | ⟨body, rest, rfl, noLf⟩
    · rw [firstLine_unterminated noLf, List.drop_length] at remains
      exact absurd rfl remains
    · have cut : (body ++ lf :: rest).take (body.length + 1) = body ++ [lf] := by
        rw [List.take_append, List.take_of_length_le (Nat.le_succ _), Nat.add_sub_cancel_left]
        rfl
      rw [firstLine_terminated noLf, List.take_add, same, cut, ← List.append_assoc]
      exact List.getLast?_concat

/-- Some line of the source fills the bound. -/
def LineAtBound (layout : Layout) (bytes : List UInt8) : Prop :=
  ∃ front text, bytes = front ++ text ∧ LineStart front ∧ FillsBound layout text

private theorem lineAtBound_iff {layout : Layout} {bytes : List UInt8} :
    LineAtBound layout bytes ↔
      ∃ index, FillsBound layout (bytes.drop (boundary bytes index)) := by
  constructor
  · rintro ⟨front, text, rfl, starts, fills⟩
    obtain ⟨index, reached⟩ := boundary_of_lineStart text starts
    exact ⟨index, by rwa [reached, List.drop_left]⟩
  · rintro ⟨index, fills⟩
    refine ⟨_, _, (List.take_append_drop (boundary bytes index) bytes).symm, ?_, fills⟩
    obtain ⟨line, rest, same, _⟩ := fills
    exact lineStart_of_boundary (by simp [same])

end Starts

section Visits

variable (maxBytes : Nat)

/-- The loop variables of `read_bounded_line` at the head of every iteration and behind its
copy. -/
def lineVisits : Nat → LineState → Source → List LineState
  | 0, state, _ => [state]
  | fuel + 1, state, source =>
    match source.fillBuf with
    | (none, _) => [state]
    | (some available, source) =>
      if available = [] then [state]
      else
        match available.findIdx? (· == lf) with
        | some newline => [state, state.copy maxBytes (available.take newline)]
        | none =>
          let copied := state.copy maxBytes available
          state :: copied ::
            lineVisits fuel (copied.advance available.length) (source.consume available.length)

variable {maxBytes}

theorem LineState.copy_fits {state : LineState} (fits : state.buf.length ≤ maxBytes)
    (segment : List UInt8) : (state.copy maxBytes segment).buf.length ≤ maxBytes := by
  simp only [LineState.copy, copyBounded]
  split
  · exact fits
  · split
    · rw [List.length_append]
      omega
    · exact Nat.zero_le _

/-- The line buffer stays within the bound, whatever is read. -/
private theorem lineVisits_fit (fuel : Nat) {state : LineState} (source : Source)
    (fits : state.buf.length ≤ maxBytes) :
    ∀ visited ∈ lineVisits maxBytes fuel state source, visited.buf.length ≤ maxBytes := by
  induction fuel generalizing state source with
  | zero => simpa [lineVisits] using fits
  | succ fuel ih =>
    unfold lineVisits
    split
    · simpa using fits
    · split
      · simpa using fits
      · split
        · intro visited member
          rcases List.mem_cons.mp member with rfl | later
          · exact fits
          · rw [List.mem_singleton] at later
            subst later
            exact state.copy_fits fits _
        · intro visited member
          rcases List.mem_cons.mp member with rfl | later
          · exact fits
          rcases List.mem_cons.mp later with rfl | behind
          · exact state.copy_fits fits _
          · refine ih _ ?_ visited behind
            exact state.copy_fits fits _

end Visits

section Refinement

variable {layout : Layout} {bytes : List UInt8}

private theorem specOutcome_eq_iff (index : Nat) :
    specOutcome layout bytes 0 index = lineSpec layout bytes index ↔
      ¬ FillsBound layout (bytes.drop (boundary bytes index)) := by
  rw [lineSpec_boundary, specOutcome, recordStart, Nat.zero_add, List.drop_zero]
  exact specRecord_eq_iff layout _

/-- Read without faults, the outcomes are those of the lines unless one of them fills the
bound. -/
theorem outcomes_lineSpec_iff (chunks : Nat → Nat) :
    (∀ count, (Reader.opened layout bytes (steady chunks) none).outcomes count =
      (List.range count).map (lineSpec layout bytes)) ↔ ¬ LineAtBound layout bytes := by
  have reported : ∀ count, (Reader.opened layout bytes (steady chunks) none).outcomes count =
      (List.range count).map (specOutcome layout bytes 0) := fun count =>
    (Reader.outcomes_steady count (Reader.opened_at layout bytes (steady chunks) none) rfl).1
  rw [lineAtBound_iff, not_exists]
  constructor
  · intro meets index
    have same := meets (index + 1)
    rw [reported, List.map_inj_left] at same
    exact (specOutcome_eq_iff index).mp (same index (List.mem_range.mpr index.lt_succ_self))
  · intro clear count
    rw [reported, List.map_inj_left]
    exact fun index _ => (specOutcome_eq_iff index).mpr (clear index)

/-- What the reader owes to its source, read without faults in the given chunks. -/
structure MeetsLineSpec (layout : Layout) (bytes : List UInt8) (chunks : Nat → Nat) : Prop where
  outcomes : ∀ count, (Reader.opened layout bytes (steady chunks) none).outcomes count =
    (List.range count).map (lineSpec layout bytes)
  buffer : ∀ count fuel,
    let source := ((Reader.opened layout bytes (steady chunks) none).after count).source
    ∀ visited ∈ lineVisits layout.maxRecordBytes fuel .start source,
      visited.buf.length ≤ layout.maxRecordBytes

/-- The reader meets its line specification on exactly the sources without a `\r\n` line
whose well-formed payload fills the width and the bound at once. -/
theorem meets_lineSpec_iff (layout : Layout) (bytes : List UInt8) (chunks : Nat → Nat) :
    MeetsLineSpec layout bytes chunks ↔ ¬ LineAtBound layout bytes := by
  constructor
  · exact fun meets => (outcomes_lineSpec_iff chunks).mp meets.outcomes
  · exact fun clear => ⟨(outcomes_lineSpec_iff chunks).mpr clear,
      fun count fuel => lineVisits_fit fuel _ (Nat.zero_le _)⟩

/-- One field of two bytes in records of at most two. -/
def tightLayout : Layout := ⟨[⟨none, 2⟩], .lf, 2, pairLayout.nonempty, pairLayout.summed⟩

/-- The `\r` of `"ab\r\n"` is charged to the record, which is then too long. -/
theorem carriage_return_fills_the_bound :
    ¬ MeetsLineSpec tightLayout [97, 98, 13, 10] (fun _ => 63) := by
  intro meets
  exact absurd (meets.outcomes 1) (by decide)

end Refinement

end OxideBatch.Item.FixedWidth
