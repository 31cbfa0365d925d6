import Mathlib

/-! A buffered `Read + Seek` source whose chunking and failures are chosen call
by call. Every behaviour of a `BufReader` over a fixed byte string is one plan. -/

namespace OxideBatch.Item

/-- What one I/O call does. A failed call may leave the physical cursor
anywhere; a served `fill_buf` offers at most `extra + 1` bytes. -/
inductive IoAnswer where
  | fail (cursor : Nat)
  | serve (extra : Nat)
  deriving DecidableEq, Repr

structure Source where
  bytes : List UInt8
  cursor : Nat
  plan : Nat → IoAnswer
  calls : Nat

namespace Source

/-- Bytes from the physical cursor to the end of the source. -/
def rest (source : Source) : List UInt8 := source.bytes.drop source.cursor

def fillBuf (source : Source) : Option (List UInt8) × Source :=
  match source.plan source.calls with
  | .fail cursor => (none, { source with cursor, calls := source.calls + 1 })
  | .serve extra =>
    (some (source.rest.take (extra + 1)), { source with calls := source.calls + 1 })

def consume (source : Source) (amount : Nat) : Source :=
  { source with cursor := source.cursor + amount }

def seek (source : Source) (target : Nat) : Bool × Source :=
  match source.plan source.calls with
  | .fail cursor => (false, { source with cursor, calls := source.calls + 1 })
  | .serve _ => (true, { source with cursor := target, calls := source.calls + 1 })

/-- `after` is a later snapshot of the same physical source. -/
structure Follows (before after : Source) : Prop where
  bytes : after.bytes = before.bytes
  plan : after.plan = before.plan
  calls : before.calls ≤ after.calls

/-- Some I/O call between the two snapshots failed. -/
def FailedBetween (before after : Source) : Prop :=
  ∃ call cursor, before.calls ≤ call ∧ call < after.calls ∧ before.plan call = .fail cursor

theorem Follows.refl (source : Source) : source.Follows source := ⟨rfl, rfl, Nat.le_refl _⟩

theorem Follows.trans (first : Follows before middle) (second : Follows middle after) :
    Follows before after :=
  ⟨second.bytes.trans first.bytes, second.plan.trans first.plan, Nat.le_trans first.calls second.calls⟩

theorem FailedBetween.widen (first : Follows before middle) (failed : FailedBetween middle after) :
    FailedBetween before after := by
  obtain ⟨call, cursor, lower, upper, failure⟩ := failed
  exact ⟨call, cursor, Nat.le_trans first.calls lower, upper, first.plan ▸ failure⟩

theorem consume_follows (source : Source) (amount : Nat) :
    source.Follows (source.consume amount) := ⟨rfl, rfl, Nat.le_refl _⟩

@[simp] theorem consume_cursor (source : Source) (amount : Nat) :
    (source.consume amount).cursor = source.cursor + amount := rfl

theorem consume_rest (source : Source) (amount : Nat) :
    (source.consume amount).rest = source.rest.drop amount := by
  simp [rest, consume, List.drop_drop]

/-- A `fill_buf` call fails, or offers a prefix of the rest that is empty only
at the end of the source; a served call moves nothing. -/
theorem fillBuf_cases (source : Source) :
    (∃ after, source.fillBuf = (none, after) ∧
      source.Follows after ∧ source.FailedBetween after) ∨
    (∃ after extra, source.fillBuf = (some (source.rest.take (extra + 1)), after) ∧
      source.Follows after ∧ after.cursor = source.cursor) := by
  unfold fillBuf
  cases answer : source.plan source.calls with
  | fail cursor =>
    refine .inl ⟨_, rfl, ⟨rfl, rfl, Nat.le_succ _⟩, ?_⟩
    exact ⟨source.calls, cursor, Nat.le_refl _, Nat.lt_succ_self _, answer⟩
  | serve extra => exact .inr ⟨_, extra, rfl, ⟨rfl, rfl, Nat.le_succ _⟩, rfl⟩

/-- A seek fails, or lands exactly on its target. -/
theorem seek_cases (source : Source) (target : Nat) :
    (∃ after, source.seek target = (false, after) ∧
      source.Follows after ∧ source.FailedBetween after) ∨
    (∃ after, source.seek target = (true, after) ∧
      source.Follows after ∧ after.cursor = target) := by
  unfold seek
  cases answer : source.plan source.calls with
  | fail cursor =>
    refine .inl ⟨_, rfl, ⟨rfl, rfl, Nat.le_succ _⟩, ?_⟩
    exact ⟨source.calls, cursor, Nat.le_refl _, Nat.lt_succ_self _, answer⟩
  | serve extra => exact .inr ⟨_, rfl, ⟨rfl, rfl, Nat.le_succ _⟩, rfl⟩

end Source

end OxideBatch.Item
