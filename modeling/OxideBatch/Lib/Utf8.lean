import Mathlib

/-! The UTF-8 bytes of a text as a list, and their way back. -/

namespace OxideBatch.Lib

/-- The loop of `ByteArray.toList` gathers the bytes in reverse. -/
theorem toList_loop (bytes : ByteArray) {index left : Nat} (gathered : List UInt8)
    (remains : index + left = bytes.size) :
    ByteArray.toList.loop bytes index gathered =
      gathered.reverse ++ bytes.data.toList.drop index := by
  induction left generalizing index gathered with
  | zero =>
    have ended : ¬ index < bytes.size := by omega
    have behind : bytes.data.toList.drop index = [] :=
      List.drop_eq_nil_of_le (by rw [Array.length_toList]; exact Nat.le_of_not_lt ended)
    rw [ByteArray.toList.loop, if_neg ended, behind, List.append_nil]
  | succ left ih =>
    have inside : index < bytes.size := by omega
    have within : index < bytes.data.toList.length := by rwa [Array.length_toList]
    have next : bytes.get! index = bytes.data.toList[index] := by
      rw [Array.getElem_toList]
      exact getElem!_pos bytes.data index inside
    rw [ByteArray.toList.loop, if_pos inside, ih _ (by omega), List.drop_eq_getElem_cons within,
      next, List.reverse_cons, List.append_assoc]
    rfl

theorem toList_eq (bytes : ByteArray) : bytes.toList = bytes.data.toList :=
  toList_loop bytes [] (Nat.zero_add _)

/-- The UTF-8 bytes of a text. -/
theorem length_utf8 (text : String) : text.toUTF8.toList.length = text.utf8ByteSize := by
  rw [toList_eq, Array.length_toList]
  rfl

theorem fromUTF8?_valid (text : String) : String.fromUTF8? text.toUTF8 = some text := by
  rw [String.fromUTF8?, String.toUTF8_eq_toByteArray, dif_pos text.isValidUTF8]
  rfl

/-- What was encoded is decoded to the text it was. -/
theorem fromUTF8?_toUTF8 (text : String) :
    String.fromUTF8? ⟨text.toUTF8.toList.toArray⟩ = some text := by
  have same : (⟨text.toUTF8.toList.toArray⟩ : ByteArray) = text.toUTF8 := by
    rw [toList_eq, Array.toArray_toList]
  rw [same, fromUTF8?_valid]

/-- The bytes of characters are decoded to the text they make. -/
theorem fromUTF8?_encoded (text : List Char) :
    String.fromUTF8? ⟨(text.flatMap String.utf8EncodeChar).toArray⟩ =
      some (String.ofList text) := by
  have same : (⟨(text.flatMap String.utf8EncodeChar).toArray⟩ : ByteArray) =
      (String.ofList text).toUTF8 := by
    rw [String.toUTF8_eq_toByteArray, String.toByteArray_ofList, List.utf8Encode]
    exact ByteArray.ext (by simp)
  rw [same, fromUTF8?_valid]

end OxideBatch.Lib
