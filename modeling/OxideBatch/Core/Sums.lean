import OxideBatch.Core.Fault

/-! Counts added up without a bound, against the checked additions of the runtime. -/

namespace OxideBatch.Core

/-- Counts added up without a bound. -/
def ChunkCounts.plus (left right : ChunkCounts) : ChunkCounts :=
  ⟨left.read + right.read, left.processed + right.processed, left.written + right.written,
    left.filtered + right.filtered⟩

/-- What `ChunkCounts::new` establishes. -/
structure ChunkCounts.Valid (counts : ChunkCounts) : Prop where
  classified : counts.processed + counts.filtered ≤ counts.read
  written : counts.written ≤ counts.processed

theorem ChunkCounts.valid_of_new {read processed written filtered : Nat} {counts : ChunkCounts}
    (accepted : new read processed written filtered = some counts) : counts.Valid := by
  have same := new_eq_some accepted
  unfold new Core.checkedAdd at accepted
  subst same
  split at accepted
  · cases accepted
  · rename_i classified found
    split at found
    · cases found
      split at accepted
      · cases accepted
      · rename_i enough
        split at accepted
        · cases accepted
        · rename_i produced
          exact ⟨Nat.not_lt.mp enough, Nat.not_lt.mp produced⟩
    · cases found

namespace SkipCounts

def plus (left right : SkipCounts) : SkipCounts :=
  ⟨left.read + right.read, left.process + right.process, left.write + right.write⟩

/-- The total without a bound. -/
def total (counts : SkipCounts) : Nat := counts.read + counts.process + counts.write

/-- One skip of a phase. -/
def unit : FaultPhase → SkipCounts
  | .read => ⟨1, 0, 0⟩
  | .process => ⟨0, 1, 0⟩
  | .write => ⟨0, 0, 1⟩
  | _ => zero

theorem total_plus (left right : SkipCounts) :
    (left.plus right).total = left.total + right.total := by
  simp only [total, plus]
  omega

theorem plus_assoc (first second third : SkipCounts) :
    (first.plus second).plus third = first.plus (second.plus third) := by
  simp [plus, Nat.add_assoc]

private theorem checked_eq_some {counts kept : SkipCounts} :
    checked counts = some kept ↔ counts = kept ∧ counts.total < u64Limit := by
  unfold checked checkedTotal Core.checkedAdd total
  by_cases first : counts.read + counts.process < u64Limit
  · by_cases second : counts.read + counts.process + counts.write < u64Limit
    · simp [first, second]
    · simp [first, second]
  · have beyond : ¬ counts.read + counts.process + counts.write < u64Limit := by omega
    simp [first, beyond]

theorem checkedTotal_eq_some {counts : SkipCounts} {total : Nat} :
    counts.checkedTotal = some total ↔ counts.total = total ∧ total < u64Limit := by
  unfold checkedTotal Core.checkedAdd SkipCounts.total
  by_cases first : counts.read + counts.process < u64Limit
  · by_cases second : counts.read + counts.process + counts.write < u64Limit
    · simp only [first, ↓reduceIte, Option.bind_eq_bind, Option.bind_some, second, Option.some.injEq]
      constructor
      · rintro rfl
        exact ⟨rfl, second⟩
      · intro same
        exact same.1
    · simp only [first, ↓reduceIte, Option.bind_eq_bind, Option.bind_some, second]
      constructor
      · intro never
        cases never
      · rintro ⟨rfl, below⟩
        exact absurd below second
  · simp only [first, ↓reduceIte, Option.bind_eq_bind, Option.bind_none]
    constructor
    · intro never
      cases never
    · rintro ⟨rfl, below⟩
      omega

theorem checkedAdd_eq_some {left right sum : SkipCounts} :
    left.checkedAdd right = some sum ↔
      left.plus right = sum ∧ (left.plus right).total < u64Limit := by
  unfold checkedAdd Core.checkedAdd
  constructor
  · intro added
    simp only [Option.bind_eq_bind, Option.bind_eq_some_iff] at added
    obtain ⟨read, one, process, two, write, three, made⟩ := added
    split at one
    · cases one
      split at two
      · cases two
        split at three
        · cases three
          exact checked_eq_some.mp made
        · cases three
      · cases two
    · cases one
  · rintro ⟨rfl, below⟩
    have whole := below
    simp only [total, plus] at whole
    rw [if_pos (by omega), if_pos (by omega), if_pos (by omega)]
    exact checked_eq_some.mpr ⟨rfl, below⟩

theorem of_checkedIncrement {counts next : SkipCounts} {phase : FaultPhase}
    (incremented : counts.checkedIncrement phase = some next) :
    next = counts.plus (unit phase) ∧ next.total = counts.total + 1 ∧ next.total < u64Limit := by
  cases phase with
  | read =>
    simp only [checkedIncrement, Core.checkedAdd, Option.bind_eq_bind,
      Option.bind_eq_some_iff] at incremented
    obtain ⟨read, one, made⟩ := incremented
    split at one
    · cases one
      obtain ⟨rfl, below⟩ := checked_eq_some.mp made
      refine ⟨rfl, ?_, below⟩
      simp only [total]
      omega
    · cases one
  | process =>
    simp only [checkedIncrement, Core.checkedAdd, Option.bind_eq_bind,
      Option.bind_eq_some_iff] at incremented
    obtain ⟨process, one, made⟩ := incremented
    split at one
    · cases one
      obtain ⟨rfl, below⟩ := checked_eq_some.mp made
      refine ⟨rfl, ?_, below⟩
      simp only [total]
      omega
    · cases one
  | write =>
    simp only [checkedIncrement, Core.checkedAdd, Option.bind_eq_bind,
      Option.bind_eq_some_iff] at incremented
    obtain ⟨write, one, made⟩ := incremented
    split at one
    · cases one
      obtain ⟨rfl, below⟩ := checked_eq_some.mp made
      refine ⟨rfl, ?_, below⟩
      simp only [total]
      omega
    · cases one
  | transaction => cases incremented
  | checkpoint => cases incremented
  | listener => cases incremented
  | backoff => cases incremented

end SkipCounts

theorem ChunkCounts.plus_of_checkedAdd {left right sum : ChunkCounts}
    (added : left.checkedAdd right = some sum) : sum = left.plus right := by
  unfold checkedAdd Core.checkedAdd at added
  simp only [Option.bind_eq_bind, Option.bind_eq_some_iff] at added
  obtain ⟨read, one, processed, two, written, three, filtered, four, made⟩ := added
  rw [new_eq_some made]
  split at one
  · cases one
    split at two
    · cases two
      split at three
      · cases three
        split at four
        · cases four
          rfl
        · cases four
      · cases three
    · cases two
  · cases one

theorem ChunkCounts.checkedAdd_of_fits {left right : ChunkCounts} (valid : left.Valid)
    (valid' : right.Valid) (fits : (left.plus right).read < u64Limit) :
    left.checkedAdd right = some (left.plus right) := by
  have classified := valid.classified
  have classified' := valid'.classified
  have written := valid.written
  have written' := valid'.written
  simp only [plus] at fits
  unfold checkedAdd new Core.checkedAdd
  rw [if_pos (by omega), if_pos (by omega), if_pos (by omega), if_pos (by omega)]
  simp only [Option.bind_eq_bind, Option.bind_some]
  rw [if_pos (by omega)]
  dsimp only
  rw [if_neg (by omega), if_neg (by omega)]
  rfl

theorem ChunkCounts.Valid.plus {left right : ChunkCounts} (valid : left.Valid)
    (valid' : right.Valid) : (left.plus right).Valid := by
  have classified := valid.classified
  have classified' := valid'.classified
  have written := valid.written
  have written' := valid'.written
  constructor
  · simp only [ChunkCounts.plus]
    omega
  · simp only [ChunkCounts.plus]
    omega

end OxideBatch.Core
