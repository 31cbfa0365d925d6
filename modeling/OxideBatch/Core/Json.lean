import Mathlib

/-! JSON documents as `serde_json::Value` holds them: an object's members stand in
key order. -/

namespace OxideBatch.Core

inductive Json where
  | null
  | bool (value : Bool)
  | integer (value : Int)
  | float (text : String)
  | string (value : String)
  | array (values : List Json)
  | object (members : List (String × Json))

namespace Json

def asObject : Json → Option (List (String × Json))
  | .object members => some members
  | _ => none

def asArray : Json → Option (List Json)
  | .array values => some values
  | _ => none

def asStr : Json → Option String
  | .string value => some value
  | _ => none

/-- An integer that is representable as `u64`. -/
def asU64 : Json → Option Nat
  | .integer value => if 0 ≤ value ∧ value < 2 ^ 64 then some value.toNat else none
  | _ => none

/-- The value of one member. -/
def member? (key : String) (members : List (String × Json)) : Option Json :=
  (members.find? (·.1 = key)).map (·.2)

def hasMember (key : String) (members : List (String × Json)) : Bool :=
  (member? key members).isSome

/-- Sets one member at its place in key order. -/
def insertMember (key : String) (value : Json) : List (String × Json) → List (String × Json)
  | [] => [(key, value)]
  | (other, held) :: members =>
    if key < other then (key, value) :: (other, held) :: members
    else if key = other then (key, value) :: members
    else (other, held) :: insertMember key value members

/-- `as_object_mut` and `insert`; anything but an object stays as it is. -/
def withMember (document : Json) (key : String) (value : Json) : Json :=
  match document with
  | .object members => .object (insertMember key value members)
  | other => other

mutual

/-- Whether a number in the document is not an integer. -/
def containsFloat : Json → Bool
  | .float _ => true
  | .array values => anyFloat values
  | .object members => anyMemberFloat members
  | _ => false

def anyFloat : List Json → Bool
  | [] => false
  | value :: values => value.containsFloat || anyFloat values

def anyMemberFloat : List (String × Json) → Bool
  | [] => false
  | (_, value) :: members => value.containsFloat || anyMemberFloat members

end

mutual

/-- Whether an object of the document has a member `key`. -/
def containsObjectKey (key : String) : Json → Bool
  | .array values => anyObjectKey key values
  | .object members => anyMemberKey key members
  | _ => false

def anyObjectKey (key : String) : List Json → Bool
  | [] => false
  | value :: values => value.containsObjectKey key || anyObjectKey key values

def anyMemberKey (key : String) : List (String × Json) → Bool
  | [] => false
  | (member, value) :: members =>
    member = key || value.containsObjectKey key || anyMemberKey key members

end

/-- The quotation mark. -/
def mark : Char := .ofNat 34

/-- The backslash. -/
def slash : Char := .ofNat 92

/-- One character of a string as `serde_json` writes it. -/
def escape (character : Char) : List Char :=
  match character.toNat with
  | 34 => [slash, mark]
  | 92 => [slash, slash]
  | 8 => [slash, 'b']
  | 9 => [slash, 't']
  | 10 => [slash, 'n']
  | 12 => [slash, 'f']
  | 13 => [slash, 'r']
  | code =>
    if code < 32 then
      [slash, 'u', '0', '0', Nat.digitChar (code / 16), Nat.digitChar (code % 16)]
    else [character]

def quote (text : String) : List Char := mark :: text.toList.flatMap escape ++ [mark]

mutual

/-- The compact text of a document. -/
def render : Json → List Char
  | .null => "null".toList
  | .bool true => "true".toList
  | .bool false => "false".toList
  | .integer value => (toString value).toList
  | .float text => text.toList
  | .string value => quote value
  | .array values => '[' :: renderValues values ++ [']']
  | .object members => .ofNat 123 :: renderMembers members ++ [.ofNat 125]

def renderValues : List Json → List Char
  | [] => []
  | [value] => value.render
  | value :: values => value.render ++ ',' :: renderValues values

def renderMembers : List (String × Json) → List Char
  | [] => []
  | [(key, value)] => quote key ++ ':' :: value.render
  | (key, value) :: members => quote key ++ ':' :: value.render ++ ',' :: renderMembers members

end

/-- The bytes of the compact text. -/
def toBytes (document : Json) : List UInt8 := document.render.flatMap String.utf8EncodeChar

theorem asU64_natCast {value : Nat} (small : value < 2 ^ 64) :
    (Json.integer value).asU64 = some value := by
  have within : 0 ≤ (value : Int) ∧ (value : Int) < 2 ^ 64 :=
    ⟨Int.natCast_nonneg value, by exact_mod_cast small⟩
  rw [Json.asU64, if_pos within]
  rfl

@[simp] theorem member?_nil (key : String) : member? key [] = none := rfl

@[simp] theorem member?_cons (key other : String) (value : Json)
    (members : List (String × Json)) :
    member? key ((other, value) :: members) =
      if other = key then some value else member? key members := by
  by_cases same : other = key
  · simp [member?, same]
  · simp [member?, same]

theorem member?_insertMember (key other : String) (value : Json)
    (members : List (String × Json)) :
    member? other (insertMember key value members) =
      if key = other then some value else member? other members := by
  induction members with
  | nil => simp [insertMember]
  | cons head members ih =>
    obtain ⟨first, held⟩ := head
    unfold insertMember
    split
    · simp
    · split
      · next same =>
        subst same
        by_cases equal : key = other
        · simp [equal]
        · simp [equal]
      · next different =>
        rw [member?_cons, member?_cons, ih]
        by_cases equal : key = other
        · subst equal
          have away : first ≠ key := fun same => different same.symm
          simp [away]
        · simp [equal]

end Json

end OxideBatch.Core
