import OxideBatch.Repository.World
import OxideBatch.Lib.Journal
import OxideBatch.Lib.Hex
import OxideBatch.Lib.Legible

/-! The units of work of the services over the in-memory repository, and the canonical
bytes of what they digest. -/

namespace OxideBatch.Service

open OxideBatch.Core OxideBatch.Plan OxideBatch.Repository OxideBatch.Lib

/-- The revision of the in-memory repository. -/
def memoryVersions : Versioned MemoryState where
  revision state := state.revision
  stamp state count := { state with revision := count }
  limit := u64Limit
  revision_stamp _ _ := rfl

/-- A commit of a service other than the one at hand; `silent` is what it leaves alone. -/
structure Foreign (silent : MemoryState → MemoryState → Prop) where
  change : MemoryState → MemoryState
  leaves : ∀ state, silent state (change state)

section Digests

/-- `CanonicalWriter`: length-prefixed fields and big-endian numbers. -/
abbrev CanonicalBytes := List UInt8

namespace CanonicalBytes

def pushBytes (bytes : CanonicalBytes) (value : List UInt8) : CanonicalBytes :=
  bytes ++ beBytes 8 (min value.length (u64Limit - 1)) ++ value

def pushStr (bytes : CanonicalBytes) (value : String) : CanonicalBytes :=
  bytes.pushBytes (textBytes value)

def pushU64 (bytes : CanonicalBytes) (value : Nat) : CanonicalBytes :=
  bytes ++ beBytes 8 value

def new (tag : String) : CanonicalBytes := pushStr [] tag

variable (bytes : CanonicalBytes)

theorem pushBytes_eq (value : List UInt8) : bytes.pushBytes value = bytes ++ prefixed 8 value := by
  simp [pushBytes, prefixed, u64Limit]

theorem pushStr_eq (value : String) :
    bytes.pushStr value = bytes ++ prefixed 8 (textBytes value) := pushBytes_eq bytes _

theorem pushU64_eq (value : Nat) : bytes.pushU64 value = bytes ++ beBytes 8 value := rfl

/-- A loop of writes is one behind the other. -/
theorem foldl_writes {α : Type} {push : CanonicalBytes → α → CanonicalBytes}
    {write : α → List UInt8} (appends : ∀ writer value, push writer value = writer ++ write value)
    (values : List α) : values.foldl push bytes = bytes ++ values.flatMap write := by
  induction values generalizing bytes with
  | nil => simp
  | cons value values ih =>
    rw [List.foldl_cons, ih, appends, List.append_assoc, List.flatMap_cons]

end CanonicalBytes

/-- A hash without collisions between short strings. -/
def spelledHash (bytes : List UInt8) : Digest := Fin.ofNat _ (spelled bytes)

theorem spelledHash_injOn : Set.InjOn spelledHash {bytes | bytes.length ≤ 31} := by
  have within : ∀ bytes : List UInt8, bytes.length ≤ 31 → spelled bytes < 2 ^ 256 := by
    intro bytes short
    have bound := spelled_lt bytes
    have grows : 257 ^ bytes.length ≤ 257 ^ 31 := Nat.pow_le_pow_right (by omega) short
    have fits : 257 ^ 31 < 2 ^ 256 := by decide
    omega
  intro left short right short' same
  have values := congrArg Fin.val same
  simp only [spelledHash, Fin.val_ofNat] at values
  rw [Nat.mod_eq_of_lt (within left short), Nat.mod_eq_of_lt (within right short')] at values
  exact spelled_injective values

end Digests

end OxideBatch.Service
