import OxideBatch.Core.Json

/-! Properties of every object inside a document, and members of a document. -/

namespace OxideBatch.Core.Json

/-- A member of a document that is an object. -/
def get? (document : Json) (key : String) : Option Json := document.asObject.bind (member? key)

section Equality

mutual

/-- Structural equality. -/
def same : Json → Json → Bool
  | .null, .null => true
  | .bool left, .bool right => left = right
  | .integer left, .integer right => left = right
  | .float left, .float right => left = right
  | .string left, .string right => left = right
  | .array left, .array right => sameValues left right
  | .object left, .object right => sameMembers left right
  | _, _ => false

def sameValues : List Json → List Json → Bool
  | [], [] => true
  | left :: lefts, right :: rights => left.same right && sameValues lefts rights
  | _, _ => false

def sameMembers : List (String × Json) → List (String × Json) → Bool
  | [], [] => true
  | (key, left) :: lefts, (key', right) :: rights =>
    key = key' && left.same right && sameMembers lefts rights
  | _, _ => false

end

mutual

private theorem same_iff : ∀ left right : Json, left.same right = true ↔ left = right
  | .null, right => by cases right <;> simp [same]
  | .bool _, right => by cases right <;> simp [same]
  | .integer _, right => by cases right <;> simp [same]
  | .float _, right => by cases right <;> simp [same]
  | .string _, right => by cases right <;> simp [same]
  | .array left, right => by
    cases right with
    | array right => simp [same, sameValues_iff left right]
    | null | bool _ | integer _ | float _ | string _ | object _ => simp [same]
  | .object left, right => by
    cases right with
    | object right => simp [same, sameMembers_iff left right]
    | null | bool _ | integer _ | float _ | string _ | array _ => simp [same]

private theorem sameValues_iff : ∀ left right :
    List Json, sameValues left right = true ↔ left = right
  | [], right => by cases right <;> simp [sameValues]
  | left :: lefts, right => by
    cases right with
    | nil => simp [sameValues]
    | cons right rights => simp [sameValues, same_iff left right, sameValues_iff lefts rights]

private theorem sameMembers_iff : ∀ left right : List (String × Json),
    sameMembers left right = true ↔ left = right
  | [], right => by cases right <;> simp [sameMembers]
  | (key, left) :: lefts, right => by
    cases right with
    | nil => simp [sameMembers]
    | cons entry rights =>
      simp [sameMembers, same_iff left entry.2, sameMembers_iff lefts rights, Prod.ext_iff]

end

instance : DecidableEq Json := fun left right => decidable_of_iff _ (same_iff left right)

end Equality

section Members

@[simp] theorem get?_object (members : List (String × Json)) (key : String) :
    (object members).get? key = member? key members := rfl

/-- Setting a member of an object changes that member alone. -/
theorem get?_withMember {document : Json} (isObject : document.asObject ≠ none)
    (key other : String) (value : Json) :
    (document.withMember key value).get? other =
      if key = other then some value else document.get? other := by
  cases document with
  | object members => exact member?_insertMember key other value members
  | null | bool _ | integer _ | float _ | string _ | array _ => exact absurd rfl isObject

theorem asObject_withMember {document : Json} (isObject : document.asObject ≠ none) (key : String)
    (value : Json) : (document.withMember key value).asObject ≠ none := by
  cases document with
  | object members => exact nofun
  | null | bool _ | integer _ | float _ | string _ | array _ => exact absurd rfl isObject

end Members

section Every

mutual

/-- Every object in the document satisfies `good`, and every number is an integer. -/
def Every (good : List (String × Json) → Prop) : Json → Prop
  | .float _ => False
  | .array values => EveryValue good values
  | .object members => good members ∧ EveryMember good members
  | _ => True

def EveryValue (good : List (String × Json) → Prop) : List Json → Prop
  | [] => True
  | value :: values => value.Every good ∧ EveryValue good values

def EveryMember (good : List (String × Json) → Prop) : List (String × Json) → Prop
  | [] => True
  | (_, value) :: members => value.Every good ∧ EveryMember good members

end

variable {good : List (String × Json) → Prop}

@[simp] theorem every_null : Json.null.Every good ↔ True := Iff.rfl

@[simp] theorem every_bool {value : Bool} : (Json.bool value).Every good ↔ True := Iff.rfl

@[simp] theorem every_integer {value : Int} : (Json.integer value).Every good ↔ True := Iff.rfl

@[simp] theorem every_string {value : String} : (Json.string value).Every good ↔ True := Iff.rfl

@[simp] theorem every_object {members : List (String × Json)} :
    (Json.object members).Every good ↔ good members ∧ EveryMember good members := Iff.rfl

@[simp] theorem everyMember_nil : EveryMember good [] ↔ True := Iff.rfl

@[simp] theorem everyMember_cons {key : String} {value : Json} {members : List (String × Json)} :
    EveryMember good ((key, value) :: members) ↔ value.Every good ∧ EveryMember good members :=
  Iff.rfl

@[simp] theorem every_array {values : List Json} :
    (Json.array values).Every good ↔ ∀ value ∈ values, value.Every good := by
  have general : EveryValue good values ↔ ∀ value ∈ values, value.Every good := by
    induction values with
    | nil => simp [EveryValue]
    | cons value values ih => simp [EveryValue, ih]
  simp only [Every]
  exact general

theorem everyMember_insertMember {members : List (String × Json)} {key : String} {value : Json}
    (new : value.Every good) (held : EveryMember good members) :
    EveryMember good (insertMember key value members) := by
  induction members with
  | nil =>
    rw [insertMember, everyMember_cons]
    exact ⟨new, held⟩
  | cons head members ih =>
    obtain ⟨other, present⟩ := head
    rw [everyMember_cons] at held
    unfold insertMember
    split
    · rw [everyMember_cons, everyMember_cons]
      exact ⟨new, held⟩
    · split
      · rw [everyMember_cons]
        exact ⟨new, held.2⟩
      · rw [everyMember_cons]
        exact ⟨held.1, ih held.2⟩

theorem Every.withMember {document : Json} {key : String} {value : Json}
    (every : document.Every good) (new : value.Every good)
    (kept : ∀ members, document = .object members → good (insertMember key value members)) :
    (document.withMember key value).Every good := by
  cases document with
  | object members =>
    rw [every_object] at every
    change (Json.object (insertMember key value members)).Every good
    rw [every_object]
    exact ⟨kept members rfl, everyMember_insertMember new every.2⟩
  | null | bool _ | integer _ | float _ | string _ | array _ => exact every

mutual

theorem containsFloat_of_every : ∀ document : Json, document.Every good →
    document.containsFloat = false
  | .null, _ | .bool _, _ | .integer _, _ | .string _, _ => by simp [containsFloat]
  | .float _, every => by simp [Every] at every
  | .array values, every => by
    simp only [Every] at every
    simpa only [containsFloat] using anyFloat_of_every values every
  | .object members, every => by
    rw [every_object] at every
    simpa only [containsFloat] using anyMemberFloat_of_every members every.2

private theorem anyFloat_of_every : ∀ values : List Json, EveryValue good values →
    anyFloat values = false
  | [], _ => by simp [anyFloat]
  | value :: values, every => by
    simp only [EveryValue] at every
    simp [anyFloat, containsFloat_of_every value every.1, anyFloat_of_every values every.2]

theorem anyMemberFloat_of_every : ∀ members : List (String × Json), EveryMember good members →
    anyMemberFloat members = false
  | [], _ => by simp [anyMemberFloat]
  | (_, value) :: members, every => by
    rw [everyMember_cons] at every
    simp [anyMemberFloat, containsFloat_of_every value every.1,
      anyMemberFloat_of_every members every.2]

end

theorem member?_eq_none {key : String} {members : List (String × Json)} :
    member? key members = none ↔ ∀ entry ∈ members, entry.1 ≠ key := by
  simp [member?, List.find?_eq_none]

mutual

theorem containsObjectKey_of_every {key : String}
    (lacks : ∀ members, good members → member? key members = none) :
    ∀ document : Json, document.Every good → document.containsObjectKey key = false
  | .null, _ | .bool _, _ | .integer _, _ | .float _, _ | .string _, _ => by
    simp [containsObjectKey]
  | .array values, every => by
    simp only [Every] at every
    simpa only [containsObjectKey] using anyObjectKey_of_every lacks values every
  | .object members, every => by
    rw [every_object] at every
    have absent := lacks members every.1
    simpa only [containsObjectKey] using
      anyMemberKey_of_every lacks members every.2 (member?_eq_none.mp absent)

private theorem anyObjectKey_of_every {key : String}
    (lacks : ∀ members, good members → member? key members = none) :
    ∀ values : List Json, EveryValue good values → anyObjectKey key values = false
  | [], _ => by simp [anyObjectKey]
  | value :: values, every => by
    simp only [EveryValue] at every
    simp [anyObjectKey, containsObjectKey_of_every lacks value every.1,
      anyObjectKey_of_every lacks values every.2]

private theorem anyMemberKey_of_every {key : String}
    (lacks : ∀ members, good members → member? key members = none) :
    ∀ members : List (String × Json), EveryMember good members →
      (∀ entry ∈ members, entry.1 ≠ key) → anyMemberKey key members = false
  | [], _, _ => by simp [anyMemberKey]
  | (member, value) :: members, every, absent => by
    rw [everyMember_cons] at every
    have here : member ≠ key := absent (member, value) List.mem_cons_self
    have later := anyMemberKey_of_every lacks members every.2
      fun entry inside => absent entry (List.mem_cons_of_mem _ inside)
    simp [anyMemberKey, here, containsObjectKey_of_every lacks value every.1, later]

end

end Every

end OxideBatch.Core.Json
