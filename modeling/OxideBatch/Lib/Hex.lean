import Mathlib
import OxideBatch.Lib.Framing

/-! Bytes as lowercase hexadecimal text, and bytes read back: numbers of a fixed width,
text, and pairs of digits. -/

namespace OxideBatch.Lib

section Numbers

/-- The number that bytes spell, the highest of them first. -/
def beValue (bytes : List UInt8) : Nat :=
  bytes.foldl (fun value byte => value * 256 + byte.toNat) 0

theorem beValue_snoc (bytes : List UInt8) (byte : UInt8) :
    beValue (bytes ++ [byte]) = beValue bytes * 256 + byte.toNat := by
  simp [beValue, List.foldl_append]

theorem beValue_beBytes {width value : Nat} (within : value < 256 ^ width) :
    beValue (beBytes width value) = value := by
  induction width generalizing value with
  | zero =>
    have zero : value = 0 := by omega
    rw [zero]
    rfl
  | succ width ih =>
    have upper : value / 256 < 256 ^ width := by
      rw [Nat.pow_succ] at within
      exact Nat.div_lt_of_lt_mul (by rwa [Nat.mul_comm])
    have lower : (UInt8.ofNat value).toNat = value % 256 := by simp
    rw [beBytes, beValue_snoc, ih upper, lower]
    omega

/-- A byte string as a number in base 257 without the digit zero. -/
def spelled : List UInt8 → Nat
  | [] => 0
  | byte :: rest => spelled rest * 257 + (byte.toNat + 1)

theorem spelled_injective : Function.Injective spelled := by
  intro left
  induction left with
  | nil =>
    intro right same
    cases right with
    | nil => rfl
    | cons byte rest =>
      simp only [spelled] at same
      omega
  | cons byte rest ih =>
    intro right same
    cases right with
    | nil =>
      simp only [spelled] at same
      omega
    | cons byte' rest' =>
      have small := byte.toNat_lt
      have small' := byte'.toNat_lt
      simp only [spelled] at same
      have bytes : byte = byte' := UInt8.toNat_inj.mp (by omega)
      have rests : rest = rest' := ih (by omega)
      rw [bytes, rests]

theorem spelled_lt (bytes : List UInt8) : spelled bytes < 257 ^ bytes.length := by
  induction bytes with
  | nil => decide
  | cons byte rest ih =>
    have small := byte.toNat_lt
    simp only [spelled, List.length_cons, Nat.pow_succ]
    omega

/-- `str::from_utf8`. -/
def readText (bytes : List UInt8) : Option String := String.fromUTF8? bytes.toByteArray

theorem readText_textBytes (text : String) : readText (textBytes text) = some text := by
  have bytes : (textBytes text).toByteArray = text.toByteArray := by
    rw [← String.utf8Encode_toList]
    rfl
  unfold readText String.fromUTF8?
  rw [bytes, dif_pos text.isValidUTF8]
  rfl

end Numbers

section Hexadecimal

def hexDigit (value : Nat) : Char :=
  if value < 10 then Char.ofNat (48 + value) else Char.ofNat (87 + value)

/-- Two digits for each byte. -/
def hexText (bytes : List UInt8) : String :=
  String.ofList (bytes.flatMap fun byte => [hexDigit (byte.toNat / 16), hexDigit (byte.toNat % 16)])

/-- The value of a lowercase digit. -/
def hexValue (byte : UInt8) : Option UInt8 :=
  if 48 ≤ byte ∧ byte ≤ 57 then some (byte - 48)
  else if 97 ≤ byte ∧ byte ≤ 102 then some (byte - 97 + 10)
  else none

/-- The bytes behind pairs of digits; a digit left over is not read. -/
def unhex : List UInt8 → Option (List UInt8)
  | high :: low :: rest => do
    let high ← hexValue high
    let low ← hexValue low
    let bytes ← unhex rest
    pure ((high <<< 4 ||| low) :: bytes)
  | _ => some []

/-- The bytes of the two digits of a byte. -/
theorem hexDigit_bytes : ∀ value < 16, ∃ digit, String.utf8EncodeChar (hexDigit value) = [digit] ∧
    hexValue digit = some (UInt8.ofNat value) := by
  intro value within
  refine ⟨if value < 10 then UInt8.ofNat (48 + value) else UInt8.ofNat (87 + value), ?_⟩
  revert value
  decide +kernel

theorem halves_join : ∀ value < 256,
    (UInt8.ofNat (value / 16)) <<< 4 ||| UInt8.ofNat (value % 16) = UInt8.ofNat value := by
  decide +kernel

/-- The digits of a byte, as bytes, read back as the byte. -/
theorem unhex_digits (byte : UInt8) (rest : List UInt8) :
    ∃ high low, textBytes (hexText [byte]) = [high, low] ∧
      unhex (high :: low :: rest) = (unhex rest).map (byte :: ·) := by
  have within := byte.toNat_lt
  obtain ⟨high, spelled, highValue⟩ := hexDigit_bytes (byte.toNat / 16) (by omega)
  obtain ⟨low, spelled', lowValue⟩ := hexDigit_bytes (byte.toNat % 16) (by omega)
  have joined := halves_join byte.toNat within
  rw [UInt8.ofNat_toNat] at joined
  refine ⟨high, low, ?_, ?_⟩
  · simp [textBytes, hexText, spelled, spelled']
  · rw [unhex, highValue, lowValue]
    cases unhex rest with
    | none => rfl
    | some bytes =>
      change some (_ :: bytes) = some (byte :: bytes)
      rw [joined]

theorem textBytes_hexText_cons (byte : UInt8) (bytes : List UInt8) :
    textBytes (hexText (byte :: bytes)) = textBytes (hexText [byte]) ++ textBytes (hexText bytes) := by
  simp [textBytes, hexText]

theorem unhex_hexText (bytes : List UInt8) : unhex (textBytes (hexText bytes)) = some bytes := by
  induction bytes with
  | nil => rfl
  | cons byte bytes ih =>
    obtain ⟨high, low, digits, reads⟩ := unhex_digits byte (textBytes (hexText bytes))
    rw [textBytes_hexText_cons, digits]
    change unhex (high :: low :: textBytes (hexText bytes)) = _
    rw [reads, ih]
    rfl

theorem length_hexText (bytes : List UInt8) :
    (textBytes (hexText bytes)).length = 2 * bytes.length := by
  induction bytes with
  | nil => rfl
  | cons byte bytes ih =>
    obtain ⟨high, low, digits, _⟩ := unhex_digits byte []
    rw [textBytes_hexText_cons, digits, List.length_append, ih, List.length_cons]
    simp
    omega

theorem hexText_injective : Function.Injective hexText := by
  intro left right same
  have read := unhex_hexText left
  rw [same, unhex_hexText right] at read
  exact (Option.some.inj read).symm

end Hexadecimal

end OxideBatch.Lib
