import Mathlib

/-! Bounded text: the validated names, codes, and tokens of a definition. -/

namespace OxideBatch.Core

/-- `char::is_whitespace`. -/
def isWhiteSpace (character : Char) : Bool :=
  let code := character.toNat
  (9 ≤ code && code ≤ 13) || code = 32 || code = 0x85 || code = 0xA0 || code = 0x1680 ||
    (0x2000 ≤ code && code ≤ 0x200A) || code = 0x2028 || code = 0x2029 || code = 0x202F ||
    code = 0x205F || code = 0x3000

/-- `char::is_control`. -/
def isControl (character : Char) : Bool :=
  character.toNat < 0x20 || (0x7F ≤ character.toNat && character.toNat ≤ 0x9F)

/-- Text that is not empty, fits `maxBytes` of UTF-8, and has neither surrounding
white space nor a control character. -/
def validText (maxBytes : Nat) (value : String) : Bool :=
  !value.toList.isEmpty && value.utf8ByteSize ≤ maxBytes &&
    !value.toList.head?.any isWhiteSpace && !value.toList.getLast?.any isWhiteSpace &&
    !value.toList.any isControl

/-- A validated text, ordered by its characters. -/
structure Token (maxBytes : Nat) where
  value : String
  valid : validText maxBytes value = true
  deriving DecidableEq

namespace Token

variable {maxBytes : Nat}

instance : Ord (Token maxBytes) := ⟨compareOn value⟩

instance : Std.TransOrd (Token maxBytes) :=
  inferInstanceAs (Std.TransCmp (compareOn value))

/-- The order of the ids and names, by a name of its own for the maps over them. -/
instance transOrd128 : Std.TransOrd (Token 128) := inferInstance

/-- The order of the codes. -/
instance transOrd64 : Std.TransOrd (Token 64) := inferInstance

instance : Std.LawfulEqOrd (Token maxBytes) where
  eq_of_compare {left right} same := by
    have values : left.value = right.value := Std.LawfulEqOrd.eq_of_compare same
    cases left
    cases right
    cases values
    rfl

instance lawfulBEq128 : LawfulBEq (Token 128) := inferInstance

def new (maxBytes : Nat) (value : String) : Option (Token maxBytes) :=
  if valid : validText maxBytes value = true then some ⟨value, valid⟩ else none

end Token

end OxideBatch.Core
