import OxideBatch.Core.ComponentState
import OxideBatch.Lib.Legible
import OxideBatch.Lib.Utf8

/-! Reading compact JSON text: a reader that gives back every document that
`serde_json::Value` can hold, whatever stands behind its text. -/

namespace OxideBatch.Core.Json

section Held

mutual

/-- What a `serde_json::Value` can hold: integers of 64 bits, floats in the spelling they are
written in, and objects in key order. -/
def held (floats : String → Bool) : Json → Bool
  | .integer value => decide (-2 ^ 63 ≤ value ∧ value < 2 ^ 64)
  | .float text => floats text
  | .array values => heldValues floats values
  | .object members => heldMembers floats members
  | _ => true

def heldValues (floats : String → Bool) : List Json → Bool
  | [] => true
  | value :: values => value.held floats && heldValues floats values

def heldMembers (floats : String → Bool) : List (String × Json) → Bool
  | [] => true
  | (key, value) :: members =>
    value.held floats && members.head?.all (fun next => key < next.1) && heldMembers floats members

end

end Held

section Reader

def leftBrace : Char := .ofNat 123

def rightBrace : Char := .ofNat 125

/-- A character of the text of a number. -/
def isNumeral (character : Char) : Bool :=
  character.isDigit || ['-', '+', '.', 'e', 'E'].contains character

/-- A character that only the text of a float has. -/
def isFloatMark (character : Char) : Bool := ['.', 'e', 'E'].contains character

def hexValue (character : Char) : Nat :=
  if character.isDigit then character.toNat - 48 else character.toNat - 87

/-- The character that a short escape stands for. -/
def unescape (character : Char) : Option Char :=
  match character.toNat with
  | 34 => some mark
  | 92 => some slash
  | 98 => some (.ofNat 8)
  | 116 => some (.ofNat 9)
  | 110 => some (.ofNat 10)
  | 102 => some (.ofNat 12)
  | 114 => some (.ofNat 13)
  | _ => none

/-- The character whose escape stands behind a backslash. -/
def readEscape : List Char → Option (Char × List Char)
  | [] => none
  | kind :: rest =>
    if kind = 'u' then
      match rest with
      | _ :: _ :: high :: low :: rest => some (.ofNat (16 * hexValue high + hexValue low), rest)
      | _ => none
    else (unescape kind).map fun character => (character, rest)

def readChar : List Char → Option (Char × List Char)
  | [] => none
  | head :: rest => if head = slash then readEscape rest else some (head, rest)

/-- The characters up to the closing mark. -/
def readText : Nat → List Char → Option (List Char × List Char)
  | 0, _ => none
  | fuel + 1, text =>
    if text.head? = some mark then some ([], text.tail)
    else
      (readChar text).bind fun (character, rest) =>
        (readText fuel rest).map fun (characters, rest) => (character :: characters, rest)

def readInteger (token : List Char) : Option Int :=
  match token with
  | [] => none
  | head :: digits =>
    if head = '-' then some (-(Nat.ofDigitChars 10 digits 0 : Nat))
    else some (Nat.ofDigitChars 10 (head :: digits) 0 : Nat)

variable (respell : String → String)

/-- A number; a float is held in the spelling it will be written in. -/
def readNumber (text : List Char) : Option (Json × List Char) :=
  let token := text.takeWhile isNumeral
  let rest := text.dropWhile isNumeral
  if token.any isFloatMark then some (.float (respell (String.ofList token)), rest)
  else (readInteger token).map fun value => (.integer value, rest)

mutual

def readValue : Nat → List Char → Option (Json × List Char)
  | 0, _ => none
  | fuel + 1, text =>
    match text with
    | [] => none
    | head :: rest =>
      if head = mark then
        (readText fuel rest).map fun (characters, rest) =>
          (.string (String.ofList characters), rest)
      else if head = '[' then
        if rest.head? = some ']' then some (.array [], rest.tail)
        else (readValues fuel rest).map fun (values, rest) => (.array values, rest)
      else if head = leftBrace then
        if rest.head? = some rightBrace then some (.object [], rest.tail)
        else (readMembers fuel rest).map fun (members, rest) => (.object members, rest)
      else if head = 'n' then some (.null, rest.drop 3)
      else if head = 't' then some (.bool true, rest.drop 3)
      else if head = 'f' then some (.bool false, rest.drop 4)
      else readNumber respell text

/-- The elements up to the closing bracket; there is at least one. -/
def readValues : Nat → List Char → Option (List Json × List Char)
  | 0, _ => none
  | fuel + 1, text =>
    (readValue fuel text).bind fun (value, rest) =>
      if rest.head? = some ',' then
        (readValues fuel rest.tail).map fun (values, rest) => (value :: values, rest)
      else if rest.head? = some ']' then some ([value], rest.tail)
      else none

/-- The members up to the closing brace; there is at least one. -/
def readMembers : Nat → List Char → Option (List (String × Json) × List Char)
  | 0, _ => none
  | fuel + 1, text =>
    if text.head? = some mark then
      (readText fuel text.tail).bind fun (key, rest) =>
        if rest.head? = some ':' then
          (readValue fuel rest.tail).bind fun (value, rest) =>
            if rest.head? = some ',' then
              (readMembers fuel rest.tail).map fun (members, rest) =>
                ((String.ofList key, value) :: members, rest)
            else if rest.head? = some rightBrace then
              some ([(String.ofList key, value)], rest.tail)
            else none
        else none
    else none

end

end Reader

section Characters

private theorem hexValue_digitChar : ∀ digit < 16, hexValue
    (Nat.digitChar digit) = digit := by decide

/-- An escape begins with a backslash or with a character that ends no text. -/
private theorem escape_head (character : Char) :
    ∃ head tail, escape character = head :: tail ∧ head ≠ mark := by
  by_cases short : character.toNat = 34
  · exact ⟨slash, [mark], by simp [escape, short], by decide⟩
  unfold escape
  split
  any_goals exact ⟨slash, _, rfl, by decide⟩
  split
  · exact ⟨slash, _, rfl, by decide⟩
  · refine ⟨character, [], rfl, fun same => short ?_⟩
    rw [same]
    rfl

theorem toNat_inj {character : Char} {code : Nat} (same : character.toNat = code) :
    character = .ofNat code := by rw [← same, Char.ofNat_toNat]

private theorem readChar_escape (character : Char) (rest : List Char) :
    readChar (escape character ++ rest) = some (character, rest) := by
  unfold escape
  split
  case h_8 code _ backslash _ _ _ _ _ =>
    split
    · next control =>
      have high := hexValue_digitChar (character.toNat / 16) (by omega)
      have low := hexValue_digitChar (character.toNat % 16) (by omega)
      simp only [List.cons_append, List.nil_append, readChar, if_true, readEscape, high, low,
        Nat.div_add_mod, Char.ofNat_toNat]
    · have other : character ≠ slash := fun same => backslash (by rw [same]; rfl)
      simp [readChar, other]
  all_goals
    next code =>
      rw [toNat_inj code]
      rfl

private theorem length_le_escaped (text : List Char) : text.length ≤
    (text.flatMap escape).length := by
  induction text with
  | nil => exact Nat.le_refl _
  | cons character text ih =>
    obtain ⟨head, tail, shape, _⟩ := escape_head character
    simp only [List.flatMap_cons, List.length_append, shape, List.length_cons]
    omega

/-- A quoted text is read back, whatever stands behind it. -/
private theorem readText_escaped {text : List Char} {fuel : Nat} (rest : List Char)
    (enough : text.length < fuel) :
    readText fuel (text.flatMap escape ++ mark :: rest) = some (text, rest) := by
  induction text generalizing fuel with
  | nil =>
    cases fuel with
    | zero => cases enough
    | succ fuel => rfl
  | cons character text ih =>
    cases fuel with
    | zero => cases enough
    | succ fuel =>
      have read := readChar_escape character (text.flatMap escape ++ mark :: rest)
      have later := ih (Nat.lt_of_succ_lt_succ enough)
      obtain ⟨head, tail, shape, other⟩ := escape_head character
      have shown : ((character :: text).flatMap escape ++ mark :: rest).head? ≠ some mark := by
        simp [shape, other]
      rw [readText, if_neg shown, List.flatMap_cons, List.append_assoc, read, Option.bind_some]
      dsimp only
      rw [later]
      rfl

end Characters

section Numbers

/-- No character of a number stands first. -/
def Ends (rest : List Char) : Prop := ∀ head ∈ rest.head?, isNumeral head = false

private theorem takeWhile_token {token rest : List Char}
    (numeral : ∀ head ∈ token, isNumeral head = true)
    (ends : Ends rest) :
    (token ++ rest).takeWhile isNumeral = token ∧ (token ++ rest).dropWhile isNumeral = rest := by
  have none : rest.takeWhile isNumeral = [] ∧ rest.dropWhile isNumeral = rest := by
    cases rest with
    | nil => exact ⟨rfl, rfl⟩
    | cons head rest =>
      have other : isNumeral head = false := ends head rfl
      simp [other]
  rw [List.takeWhile_append_of_pos numeral, List.dropWhile_append_of_pos numeral, none.1, none.2,
    List.append_nil]
  exact ⟨rfl, rfl⟩

private theorem toList_negSucc (value : Nat) :
    (toString (Int.negSucc value)).toList = '-' :: (toString (value + 1)).toList := by
  have shape : toString (Int.negSucc value) = "-" ++ toString (value + 1) := rfl
  rw [shape, String.toList_append]
  rfl

private theorem ofDigitChars_toString (value : Nat) :
    Nat.ofDigitChars 10 (toString value).toList 0 = value := by
  rw [Nat.toString_eq_repr, Nat.toList_repr]
  simp

/-- The text of a natural number begins with a digit. -/
private theorem decimal_head (value : Nat) :
    ∃ head tail, (toString value).toList = head :: tail ∧ head ≠ '-' := by
  cases shape : (toString value).toList with
  | nil =>
    rw [Nat.toString_eq_repr, Nat.toList_repr] at shape
    exact absurd shape Nat.toDigits_ne_nil
  | cons head tail =>
    refine ⟨head, tail, rfl, fun same => ?_⟩
    have member : '-' ∈ (toString value).toList := by rw [shape, same]; exact List.mem_cons_self
    exact Lib.notMem_decimal (by decide) value member

private theorem readInteger_toString (value : Int) : readInteger
    (toString value).toList = some value := by
  cases value with
  | ofNat value =>
    obtain ⟨head, tail, shape, other⟩ := decimal_head value
    have digits := ofDigitChars_toString value
    have same : (toString (Int.ofNat value)).toList = head :: tail := shape
    rw [shape] at digits
    rw [same, readInteger, if_neg other, digits]
    rfl
  | negSucc value =>
    rw [toList_negSucc, readInteger, if_pos rfl, ofDigitChars_toString]
    rfl

/-- The text of an integer shows no mark of a float. -/
private theorem integer_token (value : Int) : ∀ head ∈ (toString value).toList,
    isNumeral head = true ∧ isFloatMark head = false := by
  have digits : ∀ (number : Nat), ∀ head ∈ (toString number).toList,
      isNumeral head = true ∧ isFloatMark head = false := by
    intro number head member
    rw [Nat.toString_eq_repr, Nat.toList_repr] at member
    have digit := Nat.isDigit_of_mem_toDigits (by decide) (by decide) member
    refine ⟨by simp [isNumeral, digit], ?_⟩
    by_contra marked
    simp only [isFloatMark, Bool.not_eq_false, List.contains_eq_mem, decide_eq_true_eq,
      List.mem_cons, List.not_mem_nil, or_false] at marked
    rcases marked with rfl | rfl | rfl <;> cases digit
  cases value with
  | ofNat value => exact digits value
  | negSucc value =>
    rw [toList_negSucc]
    exact List.forall_mem_cons.mpr ⟨by decide, digits (value + 1)⟩

end Numbers

section Values

variable {respell : String → String} {floats : String → Bool}

/-- The texts of floats: numerals with a mark, in the spelling they are written in. -/
structure Spells (respell : String → String) (floats : String → Bool) : Prop where
  numeral : ∀ text, floats text = true → ∀ head ∈ text.toList, isNumeral head = true
  marked : ∀ text, floats text = true → text.toList.any isFloatMark = true
  kept : ∀ text, floats text = true → respell text = text

private theorem readNumber_integer (value : Int) {rest : List Char} (ends : Ends rest) :
    readNumber respell ((toString value).toList ++ rest) = some (.integer value, rest) := by
  have token := integer_token value
  obtain ⟨taken, behind⟩ := takeWhile_token (fun head member => (token head member).1) ends
  have plain : (toString value).toList.any isFloatMark = false :=
    List.any_eq_false.mpr fun head member => by simp [(token head member).2]
  simp only [readNumber, taken, behind, plain, Bool.false_eq_true, if_false, readInteger_toString]
  rfl

private theorem readNumber_float (spells : Spells respell floats) {text : String} {rest : List Char}
    (float : floats text = true) (ends : Ends rest) :
    readNumber respell (text.toList ++ rest) = some (.float text, rest) := by
  obtain ⟨taken, behind⟩ := takeWhile_token (spells.numeral text float) ends
  simp only [readNumber, taken, behind, spells.marked text float, if_true, String.ofList_toList,
    spells.kept text float]

theorem Spells.nonempty (spells : Spells respell floats) {text : String}
    (float : floats text = true) : text.toList ≠ [] := by
  intro empty
  have marked := spells.marked text float
  rw [empty] at marked
  cases marked

private theorem integer_nonempty (value : Int) : (toString value).toList ≠ [] := by
  intro empty
  have read := readInteger_toString value
  rw [empty] at read
  cases read

/-- What begins with a numeral is read as a number. -/
private theorem readValue_number {head : Char} (numeral : isNumeral head = true) (fuel : Nat)
    (rest : List Char) :
    readValue respell (fuel + 1) (head :: rest) = readNumber respell (head :: rest) := by
  have others : ∀ other, isNumeral other = false → head ≠ other := by
    intro other plain same
    rw [same, plain] at numeral
    cases numeral
  rw [readValue, if_neg (others mark rfl), if_neg (others '[' rfl), if_neg (others leftBrace rfl),
    if_neg (others 'n' rfl), if_neg (others 't' rfl), if_neg (others 'f' rfl)]

private theorem readValue_token {token rest : List Char} (some : token ≠ [])
    (numeral : ∀ head ∈ token, isNumeral head = true) (fuel : Nat) :
    readValue respell (fuel + 1) (token ++ rest) = readNumber respell (token ++ rest) := by
  cases token with
  | nil => exact absurd rfl some
  | cons head token => exact readValue_number (numeral head List.mem_cons_self) fuel _

private theorem renderValues_cons (value : Json) (values : List Json) (rest : List Char) :
    renderValues (value :: values) ++ ']' :: rest =
      value.render ++
        (if values = [] then ']' :: rest else ',' :: (renderValues values ++ ']' :: rest)) := by
  cases values <;> simp [renderValues]

private theorem renderMembers_cons (key : String) (value : Json) (members : List (String × Json))
    (rest : List Char) :
    renderMembers ((key, value) :: members) ++ rightBrace :: rest =
      mark :: (key.toList.flatMap escape ++ mark :: ':' :: (value.render ++
        (if members = [] then rightBrace :: rest
        else ',' :: (renderMembers members ++ rightBrace :: rest)))) := by
  cases members <;> simp [renderMembers, quote]

/-- The text of a document begins with no closing bracket. -/
private theorem render_head (spells : Spells respell floats) {document : Json}
    (held : document.held floats = true) :
    ∃ head tail, document.render = head :: tail ∧ head ≠ ']' := by
  have plain : isNumeral ']' = false := rfl
  have numbers : ∀ token : List Char, token ≠ [] → (∀ head ∈ token, isNumeral head = true) →
      ∃ head tail, token = head :: tail ∧ head ≠ ']' := by
    intro token some numeral
    cases token with
    | nil => exact absurd rfl some
    | cons head token =>
      refine ⟨head, token, rfl, fun same => ?_⟩
      have digit := numeral head List.mem_cons_self
      rw [same, plain] at digit
      cases digit
  cases document with
  | null => exact ⟨_, _, rfl, by decide⟩
  | bool value => cases value <;> exact ⟨_, _, rfl, by decide⟩
  | integer value =>
    rw [render]
    exact numbers _ (integer_nonempty value) fun head member => (integer_token value head member).1
  | float text =>
    rw [render]
    exact numbers _ (spells.nonempty held) (spells.numeral text held)
  | string value => exact ⟨_, _, rfl, by decide⟩
  | array values => exact ⟨_, _, rfl, by decide⟩
  | object members => exact ⟨_, _, rfl, by decide⟩

mutual

/-- Every document that can be held is read back from its text. -/
private theorem readValue_render (spells : Spells respell floats) : ∀ (document : Json) (fuel : Nat)
    (rest : List Char), document.held floats = true → document.render.length < fuel → Ends rest →
      readValue respell fuel (document.render ++ rest) = some (document, rest)
  | _, 0, _, _, enough, _ => absurd enough (Nat.not_lt_zero _)
  | .null, _ + 1, _, _, _, _ => rfl
  | .bool true, _ + 1, _, _, _, _ => rfl
  | .bool false, _ + 1, _, _, _, _ => rfl
  | .integer value, fuel + 1, rest, _, _, ends => by
    rw [render, readValue_token (integer_nonempty value)
      fun head member => (integer_token value head member).1]
    exact readNumber_integer value ends
  | .float text, fuel + 1, rest, held, _, ends => by
    rw [render, readValue_token (spells.nonempty held) (spells.numeral text held)]
    exact readNumber_float spells held ends
  | .string value, fuel + 1, rest, _, enough, _ => by
    rw [render, quote] at enough ⊢
    have sized := length_le_escaped value.toList
    have read := @readText_escaped value.toList fuel rest (by
      simp only [List.length_cons, List.length_append, List.length_nil] at enough
      omega)
    rw [List.cons_append, List.cons_append, List.append_assoc, List.singleton_append, readValue,
      if_pos rfl, read]
    simp
  | .array [], _ + 1, _, _, _, _ => rfl
  | .array (value :: values), fuel + 1, rest, held, enough, _ => by
    have held : heldValues floats (value :: values) = true := held
    have first : value.held floats = true := (Bool.and_eq_true_iff.mp held).1
    rw [render] at enough ⊢
    have read := readValues_render spells (value :: values) fuel rest (by simp) held (by
      simp only [List.length_cons, List.length_append, List.length_nil] at enough
      omega)
    obtain ⟨head, tail, shape, other⟩ := render_head spells first
    have open' : (renderValues (value :: values) ++ ']' :: rest).head? ≠ some ']' := by
      rw [renderValues_cons, shape]
      simpa using other
    rw [List.cons_append, List.cons_append, List.append_assoc, List.singleton_append, readValue,
      if_neg (by decide), if_pos rfl, if_neg open', read]
    rfl
  | .object [], _ + 1, _, _, _, _ => rfl
  | .object ((key, value) :: members), fuel + 1, rest, held, enough, _ => by
    have held : heldMembers floats ((key, value) :: members) = true := held
    have shape : (Json.object ((key, value) :: members)).render =
        leftBrace :: renderMembers ((key, value) :: members) ++ [rightBrace] := by
      rw [render]
      rfl
    rw [shape] at enough ⊢
    have read := readMembers_render spells ((key, value) :: members) fuel rest (by simp) held (by
      simp only [List.length_cons, List.length_append, List.length_nil] at enough
      omega)
    have open' : (renderMembers ((key, value) :: members) ++ rightBrace :: rest).head? ≠
        some rightBrace := by
      rw [renderMembers_cons]
      exact fun same => absurd (Option.some.inj same) (by decide)
    rw [List.cons_append, List.cons_append, List.append_assoc, List.singleton_append, readValue,
      if_neg (by decide), if_neg (by decide), if_pos rfl, if_neg open', read]
    rfl

private theorem readValues_render (spells : Spells respell floats) : ∀ (values : List Json)
    (fuel : Nat)
    (rest : List Char), values ≠ [] → heldValues floats values = true →
      (renderValues values).length + 1 < fuel →
      readValues respell fuel (renderValues values ++ ']' :: rest) = some (values, rest)
  | [], _, _, nonempty, _, _ => absurd rfl nonempty
  | _ :: _, 0, _, _, _, enough => absurd enough (Nat.not_lt_zero _)
  | value :: values, fuel + 1, rest, _, held, enough => by
    obtain ⟨first, later⟩ := Bool.and_eq_true_iff.mp held
    rw [renderValues_cons]
    cases values with
    | nil =>
      rw [renderValues] at enough
      have read := readValue_render spells value fuel (']' :: rest) first (by omega)
        fun head shown => by cases shown; rfl
      rw [if_pos rfl, readValues, read]
      rfl
    | cons next values =>
      simp only [renderValues, List.length_append, List.length_cons] at enough
      have read := readValue_render spells value fuel
        (',' :: (renderValues (next :: values) ++ ']' :: rest)) first (by omega)
        fun head shown => by cases shown; rfl
      have behind := readValues_render spells (next :: values) fuel rest (by simp) later (by omega)
      rw [if_neg (by simp), readValues, read, Option.bind_some]
      simp only [List.head?_cons, if_true, List.tail_cons, behind]
      rfl

private theorem readMembers_render (spells : Spells respell floats) :
    ∀ (members : List (String × Json)) (fuel : Nat) (rest : List Char), members ≠ [] →
      heldMembers floats members = true → (renderMembers members).length + 1 < fuel →
      readMembers respell fuel (renderMembers members ++ rightBrace :: rest) = some (members, rest)
  | [], _, _, nonempty, _, _ => absurd rfl nonempty
  | _ :: _, 0, _, _, _, enough => absurd enough (Nat.not_lt_zero _)
  | (key, value) :: members, fuel + 1, rest, _, held, enough => by
    simp only [heldMembers, Bool.and_eq_true] at held
    obtain ⟨⟨first, _⟩, later⟩ := held
    rw [renderMembers_cons]
    have sized := length_le_escaped key.toList
    cases members with
    | nil =>
      simp only [renderMembers, quote, List.cons_append, List.length_cons, List.length_append,
        List.length_nil] at enough
      have named := @readText_escaped key.toList fuel (':' :: (value.render ++ rightBrace :: rest))
        (by omega)
      have read := readValue_render spells value fuel (rightBrace :: rest) first (by omega)
        fun head shown => by cases shown; rfl
      rw [if_pos rfl, readMembers]
      simp only [List.head?_cons, if_true, List.tail_cons, named, Option.bind_some, read,
        String.ofList_toList]
      rfl
    | cons next members =>
      simp only [renderMembers, quote, List.cons_append, List.length_cons, List.length_append,
        List.length_nil] at enough
      have named := @readText_escaped key.toList fuel (':' :: (value.render ++
        ',' :: (renderMembers (next :: members) ++ rightBrace :: rest))) (by omega)
      have read := readValue_render spells value fuel
        (',' :: (renderMembers (next :: members) ++ rightBrace :: rest)) first (by omega)
        fun head shown => by cases shown; rfl
      have behind := readMembers_render spells (next :: members) fuel rest (by simp) later
        (by omega)
      rw [if_neg (by simp), readMembers]
      simp only [List.head?_cons, if_true, List.tail_cons, named, Option.bind_some, read, behind,
        String.ofList_toList]
      rfl

end

end Values

section Bytes

variable (respell : String → String) (floats : String → Bool)

/-- The document whose text this is, when it can be held and is not nested too deeply. -/
def readBytes (bytes : List UInt8) : Option Json :=
  (String.fromUTF8? ⟨bytes.toArray⟩).bind fun text =>
    match readValue respell (text.toList.length + 1) text.toList with
    | some (document, []) =>
      if document.held floats ∧ document.depth ≤ 127 then some document else none
    | _ => none

variable {respell floats}

theorem held_of_readBytes {bytes : List UInt8} {document : Json}
    (read : readBytes respell floats bytes = some document) : document.held floats = true := by
  obtain ⟨text, _, parsed⟩ := Option.bind_eq_some_iff.mp read
  split at parsed
  · split at parsed
    · next within =>
      cases parsed
      exact within.1
    · cases parsed
  · cases parsed

theorem readBytes_toBytes (spells : Spells respell floats) {document : Json}
    (held : document.held floats = true) (shallow : document.depth ≤ 127) :
    readBytes respell floats document.toBytes = some document := by
  have read := readValue_render spells document (document.render.length + 1) [] held
    (Nat.lt_succ_self _) (by simp [Ends])
  rw [List.append_nil] at read
  rw [readBytes, toBytes, Lib.fromUTF8?_encoded, Option.bind_some, String.toList_ofList, read]
  exact if_pos ⟨held, shallow⟩

end Bytes

end OxideBatch.Core.Json
