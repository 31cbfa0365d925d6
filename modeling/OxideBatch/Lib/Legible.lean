import Mathlib
import OxideBatch.Lib.Framing

/-! Writings that show where they end: what stands behind a value written this way can
be told from the value, so fields written one behind the other are read back one by one. -/

namespace OxideBatch.Lib

variable {α β γ : Type}

/-- No two values of the domain, with whatever behind them, are written alike. -/
def Legible (domain : α → Prop) (write : α → List β) : Prop :=
  ∀ ⦃left right : α⦄ ⦃rest rest' : List β⦄, domain left → domain right →
    write left ++ rest = write right ++ rest' → left = right ∧ rest = rest'

namespace Legible

variable {domain : α → Prop} {write : α → List β}

theorem injOn (legible : Legible domain write) : Set.InjOn write {value | domain value} := by
  intro left within right within' same
  exact (legible within within' (congrArg (· ++ []) same)).1

theorem mono {narrow : α → Prop} (legible : Legible domain write)
    (within : ∀ value, narrow value → domain value) : Legible narrow write :=
  fun _ _ _ _ first second same => legible (within _ first) (within _ second) same

/-- Values that are all written at one width. -/
theorem ofWidth {width : Nat} (sized : ∀ value, domain value → (write value).length = width)
    (injective : Set.InjOn write {value | domain value}) : Legible domain write := by
  intro left right rest rest' within within' same
  obtain ⟨fronts, rests⟩ :=
    List.append_inj same ((sized left within).trans (sized right within').symm)
  exact ⟨injective within within' fronts, rests⟩

theorem number (width : Nat) : Legible (· < 256 ^ width) (beBytes width) :=
  ofWidth (fun value _ => length_beBytes width value) fun _ within _ within' same =>
    beBytes_inj within within' same

/-- One field behind another. -/
theorem both {domain' : γ → Prop} {write' : γ → List β} (first : Legible domain write)
    (second : Legible domain' write') :
    Legible (fun pair : α × γ => domain pair.1 ∧ domain' pair.2)
      (fun pair => write pair.1 ++ write' pair.2) := by
  intro left right rest rest' within within' same
  rw [List.append_assoc, List.append_assoc] at same
  obtain ⟨heads, behind⟩ := first within.1 within'.1 same
  obtain ⟨tails, rests⟩ := second within.2 within'.2 behind
  exact ⟨Prod.ext heads tails, rests⟩

/-- A part of a value stands for the value. -/
theorem comap {part : γ → α} (legible : Legible domain write) (injective : Function.Injective part) :
    Legible (fun value => domain (part value)) (fun value => write (part value)) := by
  intro left right rest rest' within within' same
  obtain ⟨parts, rests⟩ := legible within within' same
  exact ⟨injective parts, rests⟩

/-- As many values as are announced, one behind the other. -/
theorem counted (legible : Legible domain write) {left right : List α} {rest rest' : List β}
    (within : ∀ value ∈ left, domain value) (within' : ∀ value ∈ right, domain value)
    (count : left.length = right.length)
    (same : left.flatMap write ++ rest = right.flatMap write ++ rest') :
    left = right ∧ rest = rest' := by
  induction left generalizing right with
  | nil =>
    cases right with
    | nil => exact ⟨rfl, same⟩
    | cons value values => cases count
  | cons value values ih =>
    cases right with
    | nil => cases count
    | cons value' values' =>
      simp only [List.flatMap_cons, List.append_assoc] at same
      obtain ⟨heads, behind⟩ := legible (within value List.mem_cons_self)
        (within' value' List.mem_cons_self) same
      obtain ⟨tails, rests⟩ := ih (fun entry member => within entry (List.mem_cons_of_mem _ member))
        (fun entry member => within' entry (List.mem_cons_of_mem _ member))
        (Nat.succ.inj count) behind
      exact ⟨by rw [heads, tails], rests⟩

/-- Values one behind the other, up to something that cannot begin a value. -/
theorem upTo (legible : Legible domain write) {left right : List α} {rest rest' : List β}
    (within : ∀ value ∈ left, domain value) (within' : ∀ value ∈ right, domain value)
    (closes : ∀ value behind, domain value → rest ≠ write value ++ behind)
    (closes' : ∀ value behind, domain value → rest' ≠ write value ++ behind)
    (same : left.flatMap write ++ rest = right.flatMap write ++ rest') :
    left = right ∧ rest = rest' := by
  induction left generalizing right with
  | nil =>
    cases right with
    | nil => exact ⟨rfl, same⟩
    | cons value values =>
      rw [List.flatMap_nil, List.nil_append, List.flatMap_cons, List.append_assoc] at same
      exact absurd same (closes value _ (within' value List.mem_cons_self))
  | cons value values ih =>
    cases right with
    | nil =>
      rw [List.flatMap_nil, List.nil_append, List.flatMap_cons, List.append_assoc] at same
      exact absurd same.symm (closes' value _ (within value List.mem_cons_self))
    | cons value' values' =>
      simp only [List.flatMap_cons, List.append_assoc] at same
      obtain ⟨heads, behind⟩ := legible (within value List.mem_cons_self)
        (within' value' List.mem_cons_self) same
      obtain ⟨tails, rests⟩ := ih (fun entry member => within entry (List.mem_cons_of_mem _ member))
        (fun entry member => within' entry (List.mem_cons_of_mem _ member)) behind
      exact ⟨by rw [heads, tails], rests⟩

/-- Values one behind the other, up to the end. -/
theorem toEnd (legible : Legible domain write) (written : ∀ value, write value ≠ [])
    {left right : List α} (within : ∀ value ∈ left, domain value)
    (within' : ∀ value ∈ right, domain value)
    (same : left.flatMap write = right.flatMap write) : left = right := by
  have closes : ∀ value behind, domain value → ([] : List β) ≠ write value ++ behind := by
    intro value behind _ empty
    exact written value (List.append_eq_nil_iff.mp empty.symm).1
  have ended : left.flatMap write ++ [] = right.flatMap write ++ [] := by rw [same]
  exact (legible.upTo within within' closes closes ended).1

end Legible

section Prefixed

/-- Bytes behind their number, which saturates where its `width` does not hold it. -/
def prefixed (width : Nat) (bytes : List UInt8) : List UInt8 :=
  beBytes width (min bytes.length (256 ^ width - 1)) ++ bytes

theorem legible_prefixed (width : Nat) :
    Legible (fun bytes : List UInt8 => bytes.length < 256 ^ width) (prefixed width) := by
  intro left right rest rest' within within' same
  unfold prefixed at same
  rw [Nat.min_eq_left (by omega), Nat.min_eq_left (by omega), List.append_assoc,
    List.append_assoc] at same
  obtain ⟨lengths, behind⟩ := Legible.number width within within' same
  exact List.append_inj behind lengths

theorem prefixed_ne_nil {width : Nat} (wide : 0 < width) (bytes : List UInt8) :
    prefixed width bytes ≠ [] := by
  intro empty
  have none := congrArg List.length (List.append_eq_nil_iff.mp empty).1
  rw [length_beBytes] at none
  exact absurd none (Nat.ne_of_gt wide)

theorem length_textBytes (text : String) : (textBytes text).length = text.utf8ByteSize := by
  have bytes : (textBytes text).toByteArray = text.toByteArray := by
    rw [← String.utf8Encode_toList]
    rfl
  have sizes := congrArg ByteArray.size bytes
  simpa using sizes

/-- A text behind the number of its bytes. -/
theorem legible_text (width : Nat) :
    Legible (fun text : String => text.utf8ByteSize < 256 ^ width)
      (fun text => prefixed width (textBytes text)) := by
  have legible := (legible_prefixed width).comap textBytes_injective
  simpa only [length_textBytes] using legible

end Prefixed

section Decimal

/-- Writings of one total size that begin one text are one writing. -/
theorem sized_inj {β : Type} {size : β → Nat} (positive : ∀ piece, 0 < size piece)
    {left right rest rest' : List β} (sizes : (left.map size).sum = (right.map size).sum)
    (same : left ++ rest = right ++ rest') : left = right ∧ rest = rest' := by
  induction left generalizing right with
  | nil =>
    cases right with
    | nil => exact ⟨rfl, same⟩
    | cons piece pieces =>
      have some := positive piece
      simp only [List.map_nil, List.sum_nil, List.map_cons, List.sum_cons] at sizes
      omega
  | cons piece pieces ih =>
    cases right with
    | nil =>
      have some := positive piece
      simp only [List.map_nil, List.sum_nil, List.map_cons, List.sum_cons] at sizes
      omega
    | cons piece' pieces' =>
      obtain ⟨rfl, behind⟩ := List.cons.inj same
      simp only [List.map_cons, List.sum_cons, Nat.add_left_cancel_iff] at sizes
      obtain ⟨tails, rests⟩ := ih sizes behind
      exact ⟨by rw [tails], rests⟩

/-- A text is told by the number of its bytes, whatever stands behind it. -/
theorem text_inj {left right : String} {rest rest' : List Char}
    (sizes : left.utf8ByteSize = right.utf8ByteSize)
    (same : left.toList ++ rest = right.toList ++ rest') : left = right ∧ rest = rest' := by
  have summed : ∀ text : String,
      (text.toList.map fun character => (String.utf8EncodeChar character).length).sum =
        text.utf8ByteSize := by
    intro text
    rw [← length_textBytes, textBytes, List.length_flatMap]
  have positive : ∀ character, 0 < (String.utf8EncodeChar character).length := by
    intro character
    rw [String.length_utf8EncodeChar]
    exact Char.utf8Size_pos character
  rw [← summed, ← summed] at sizes
  obtain ⟨texts, rests⟩ := sized_inj positive sizes same
  exact ⟨String.toList_inj.mp texts, rests⟩

theorem decimal_inj {left right : Nat} (same : (toString left).toList = (toString right).toList) :
    left = right := by
  have digits : Nat.toDigits 10 left = Nat.toDigits 10 right := by
    simpa only [Nat.toString_eq_repr, Nat.toList_repr] using same
  have values := congrArg (fun digits => Nat.ofDigitChars 10 digits 0) digits
  simpa using values

theorem notMem_decimal {mark : Char} (other : mark.isDigit = false) (value : Nat) :
    mark ∉ (toString value).toList := by
  intro member
  rw [Nat.toString_eq_repr, Nat.toList_repr] at member
  have digit := Nat.isDigit_of_mem_toDigits (by decide) (by decide) member
  rw [other] at digit
  cases digit

/-- A number in front of a mark that is no digit. -/
theorem decimal_mark_inj {mark : Char} (other : mark.isDigit = false) {left right : Nat}
    {rest rest' : List Char}
    (same : (toString left).toList ++ mark :: rest = (toString right).toList ++ mark :: rest') :
    left = right ∧ rest = rest' := by
  obtain ⟨fields, rests⟩ :=
    terminated_inj (notMem_decimal other left) (notMem_decimal other right) same
  exact ⟨decimal_inj fields, rests⟩

end Decimal

end OxideBatch.Lib
