import Mathlib

/-! Checked `u64` counters of a chunk step. Counters are natural numbers; every
operation that the runtime checks against `u64` is checked here. -/

namespace OxideBatch.Core

def u64Limit : Nat := 2 ^ 64

def checkedAdd (left right : Nat) : Option Nat :=
  if left + right < u64Limit then some (left + right) else none

def saturatingAdd (left right : Nat) : Nat := min (left + right) (u64Limit - 1)

def u32Limit : Nat := 2 ^ 32

instance : NeZero u64Limit := ⟨Nat.two_pow_pos 64 |>.ne'⟩

section Numbers

/-- A number from 1 up to `limit` as it is; any other wraps around. -/
def wrap (limit number : Nat) : Nat := (number - 1) % (limit - 1) + 1

theorem wrap_pos (limit number : Nat) : 0 < wrap limit number := Nat.succ_pos _

private theorem wrap_lt {limit : Nat} (large : 1 < limit) (number : Nat) :
    wrap limit number < limit := by
  have below := Nat.mod_lt (number - 1) (Nat.sub_pos_of_lt large)
  unfold wrap
  omega

private theorem wrap_lt_u32 (number : Nat) : wrap u32Limit number < 2 ^ 32 := wrap_lt
    (by decide) number

theorem wrap_lt_u64 (number : Nat) : wrap u64Limit number < u64Limit := wrap_lt (by decide) number

end Numbers

/-- `NonZeroU32`: sizes, limits, and schema versions. -/
structure Positive where
  get : Nat
  positive : 0 < get
  within : get < 2 ^ 32
  deriving DecidableEq

def Positive.numbered (number : Nat) : Positive :=
  ⟨wrap u32Limit number, wrap_pos u32Limit number, wrap_lt_u32 number⟩

instance (number : Nat) : OfNat Positive (number + 1) := ⟨.numbered (number + 1)⟩

abbrev ChunkSize := Positive

structure ChunkCounts where
  read : Nat
  processed : Nat
  written : Nat
  filtered : Nat
  deriving DecidableEq, Repr

namespace ChunkCounts

def zero : ChunkCounts := ⟨0, 0, 0, 0⟩

def new (read processed written filtered : Nat) : Option ChunkCounts :=
  match checkedAdd processed filtered with
  | none => none
  | some classified =>
    if read < classified then none
    else if processed < written then none
    else some ⟨read, processed, written, filtered⟩

def checkedAdd (left right : ChunkCounts) : Option ChunkCounts := do
  let read ← Core.checkedAdd left.read right.read
  let processed ← Core.checkedAdd left.processed right.processed
  let written ← Core.checkedAdd left.written right.written
  let filtered ← Core.checkedAdd left.filtered right.filtered
  new read processed written filtered

/-- Accepted counts are the requested ones. -/
theorem new_eq_some {read processed written filtered : Nat}
    (accepted : new read processed written filtered = some counts) :
    counts = ⟨read, processed, written, filtered⟩ := by
  unfold new at accepted
  split at accepted
  · cases accepted
  · split at accepted
    · cases accepted
    · split at accepted
      · cases accepted
      · exact (Option.some.inj accepted).symm

end ChunkCounts

end OxideBatch.Core
