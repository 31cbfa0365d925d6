import Mathlib

/-! Byte framings that can be read back in one way only: fields closed by a
terminator, numbers of a fixed width, and UTF-8 text. -/

namespace OxideBatch.Lib

variable {α : Type}

/-- A field that does not hold its terminator ends where the terminator first stands. -/
theorem terminated_inj {mark : α} {field field' rest rest' : List α} (absent : mark ∉ field)
    (absent' : mark ∉ field') (same : field ++ mark :: rest = field' ++ mark :: rest') :
    field = field' ∧ rest = rest' := by
  induction field generalizing field' with
  | nil =>
    cases field' with
    | nil => exact ⟨rfl, (List.cons.inj same).2⟩
    | cons head tail =>
      obtain ⟨first, _⟩ := List.cons.inj same
      exact absurd (first ▸ List.mem_cons_self) absent'
  | cons head tail ih =>
    cases field' with
    | nil =>
      obtain ⟨first, _⟩ := List.cons.inj same
      exact absurd (first ▸ List.mem_cons_self) absent
    | cons head' tail' =>
      obtain ⟨first, later⟩ := List.cons.inj same
      obtain ⟨tails, rests⟩ := ih (fun member => absent (List.mem_cons_of_mem _ member))
        (fun member => absent' (List.mem_cons_of_mem _ member)) later
      exact ⟨by rw [first, tails], rests⟩

/-- The lowest `width` bytes of a number, the highest of them first. -/
def beBytes : (width : Nat) → Nat → List UInt8
  | 0, _ => []
  | width + 1, value => beBytes width (value / 256) ++ [UInt8.ofNat value]

@[simp] theorem length_beBytes (width value : Nat) : (beBytes width value).length = width := by
  induction width generalizing value with
  | zero => rfl
  | succ width ih => simp [beBytes, ih]

theorem beBytes_inj {width value value' : Nat} (within : value < 256 ^ width)
    (within' : value' < 256 ^ width) (same : beBytes width value = beBytes width value') :
    value = value' := by
  induction width generalizing value value' with
  | zero => omega
  | succ width ih =>
    obtain ⟨upper, lower⟩ := List.append_inj' same rfl
    have heads : value / 256 = value' / 256 := by
      apply ih _ _ upper
      · rw [Nat.pow_succ] at within
        exact Nat.div_lt_of_lt_mul (by rwa [Nat.mul_comm])
      · rw [Nat.pow_succ] at within'
        exact Nat.div_lt_of_lt_mul (by rwa [Nat.mul_comm])
    have tails : value % 256 = value' % 256 := by
      have bytes := congrArg UInt8.toNat (List.cons.inj lower).1
      simpa using bytes
    omega

/-- The UTF-8 bytes of a text. -/
def textBytes (text : String) : List UInt8 := text.toList.flatMap String.utf8EncodeChar

theorem textBytes_injective : Function.Injective textBytes := by
  intro left right same
  have bytes : ∀ text, (textBytes text).toByteArray = text.toByteArray := by
    intro text
    rw [← String.utf8Encode_toList]
    rfl
  apply String.toByteArray_inj.mp
  rw [← bytes, ← bytes, same]

private theorem mod_of_zero_byte {value : Nat} (zero : (0 : UInt8) = UInt8.ofNat value) :
    value % 256 = 0 := by
  have bytes := congrArg UInt8.toNat zero
  simpa using bytes.symm

/-- Only the character zero is written with a zero byte. -/
theorem toNat_of_zero_mem {character : Char} (member : 0 ∈ String.utf8EncodeChar character) :
    character.toNat = 0 := by
  simp only [String.utf8EncodeChar] at member
  split at member
  · have zero := mod_of_zero_byte (List.mem_singleton.mp member)
    change character.toNat % 256 = 0 at zero
    change character.toNat ≤ 127 at *
    omega
  · exfalso
    split at member
    · rcases List.mem_pair.mp member with byte | byte
      all_goals
        have zero := mod_of_zero_byte byte
        omega
    · split at member
      all_goals
        simp only [List.mem_cons, List.not_mem_nil, or_false] at member
        rcases member with byte | byte | byte <;> first
          | (have zero := mod_of_zero_byte byte; omega)
          | (rcases byte with byte | byte <;> (have zero := mod_of_zero_byte byte; omega))

theorem zero_notMem_textBytes {text : String}
    (clear : ∀ character ∈ text.toList, character.toNat ≠ 0) : 0 ∉ textBytes text := by
  intro member
  obtain ⟨character, within, zero⟩ := List.mem_flatMap.mp member
  exact clear character within (toNat_of_zero_mem zero)

end OxideBatch.Lib
