import Mathlib
import OxideBatch.Core.Text

/-! Exit patterns: wildcard matching, specificity, and the intersection test that
rules out ambiguous transitions. -/

namespace OxideBatch.Plan

open OxideBatch.Core

def maxPatternBytes : Nat := 64

/-- A flow- and operator-facing exit code. -/
abbrev ExitCode := Token 64

/-- Literal characters, `*` for any characters, and `?` for exactly one. -/
abbrev ExitPattern := Token maxPatternBytes

/-- The loop variables of `matches_from`. The value index never falls behind the
resume point of the last `*`. -/
structure Scan where
  patternIndex : Nat
  valueIndex : Nat
  star : Option (Nat × Nat)
  behind : ∀ point ∈ star, point.2 ≤ valueIndex

namespace Scan

def start : Scan := ⟨0, 0, none, by simp⟩

/-- Resumes one character behind the last `*`. -/
def backtrack (scan : Scan) : Option Scan :=
  scan.star.map fun point =>
    ⟨point.1 + 1, point.2 + 1, some (point.1, point.2 + 1), by simp⟩

/-- One round of the loop on the character at the value index; `none` gives up. -/
def next (pattern : List Char) (character : Char) (scan : Scan) : Option Scan :=
  match pattern[scan.patternIndex]? with
  | none => scan.backtrack
  | some expected =>
    if expected = '*' then
      some ⟨scan.patternIndex + 1, scan.valueIndex, some (scan.patternIndex, scan.valueIndex),
        by simp⟩
    else if expected = '?' ∨ expected = character then
      some ⟨scan.patternIndex + 1, scan.valueIndex + 1, scan.star,
        fun point same => Nat.le_succ_of_le (scan.behind point same)⟩
    else scan.backtrack

/-- Characters behind the resume point; one more before any `*`. -/
def ahead (value : List Char) (scan : Scan) : Nat :=
  (scan.star.map fun point => value.length - point.2).getD (value.length + 1)

/-- What is left to scan: the characters behind the resume point, then the pattern. -/
def remaining (pattern value : List Char) (scan : Scan) : Nat :=
  scan.ahead value * (pattern.length + 1) + (pattern.length - scan.patternIndex)

private theorem remaining_lt {pattern : List Char} {scan after : Scan}
    (closer : after.ahead value < scan.ahead value) :
    after.remaining pattern value < scan.remaining pattern value := by
  have rows := Nat.mul_le_mul_right (pattern.length + 1) closer
  rw [Nat.succ_mul] at rows
  unfold remaining
  omega

private theorem backtrack_ahead {value : List Char} {scan : Scan}
    (inside : scan.valueIndex < value.length) (moved : scan.backtrack = some after) :
    after.ahead value < scan.ahead value := by
  obtain ⟨patternIndex, valueIndex, star, behind⟩ := scan
  cases star with
  | none => cases moved
  | some point =>
    cases moved
    have reached : point.2 ≤ valueIndex := behind point rfl
    have bound : valueIndex < value.length := inside
    simp only [ahead, Option.map_some, Option.getD_some]
    omega

private theorem star_ahead (value : List Char) (scan : Scan) :
    value.length - scan.valueIndex ≤ scan.ahead value := by
  obtain ⟨_, valueIndex, star, behind⟩ := scan
  cases star with
  | none =>
    simp only [ahead, Option.map_none, Option.getD_none]
    omega
  | some point =>
    have reached : point.2 ≤ valueIndex := behind point rfl
    simp only [ahead, Option.map_some, Option.getD_some]
    omega

private theorem next_lt {pattern value : List Char} {scan : Scan}
    (inside : scan.valueIndex < value.length)
    (moved : scan.next pattern character = some after) :
    after.remaining pattern value < scan.remaining pattern value := by
  unfold next at moved
  split at moved
  · exact remaining_lt (backtrack_ahead inside moved)
  · rename_i expected here
    obtain ⟨room, _⟩ := List.getElem?_eq_some_iff.mp here
    split at moved
    · cases moved
      have rows := Nat.mul_le_mul_right (pattern.length + 1)
        (star_ahead value scan)
      simp only [remaining, ahead, Option.map_some, Option.getD_some] at rows ⊢
      omega
    · split at moved
      · cases moved
        simp only [remaining, ahead]
        omega
      · exact remaining_lt (backtrack_ahead inside moved)

end Scan

def matchesLoop (pattern value : List Char) (scan : Scan) : Bool :=
  if inside : scan.valueIndex < value.length then
    match moved : scan.next pattern value[scan.valueIndex] with
    | some after => matchesLoop pattern value after
    | none => false
  else (pattern.drop scan.patternIndex).all (· = '*')
  termination_by scan.remaining pattern value
  decreasing_by exact Scan.next_lt inside moved

def ExitPattern.matches (pattern : ExitPattern) (code : ExitCode) : Bool :=
  matchesLoop pattern.value.toList code.value.toList .start

/-- What a pattern stands for: each `?` is one character and each `*` any of them. -/
inductive Wild : List Char → List Char → Prop where
  | nil : Wild [] []
  | skip : Wild pattern value → Wild ('*' :: pattern) value
  | take : Wild ('*' :: pattern) value → Wild ('*' :: pattern) (character :: value)
  | any : Wild pattern value → Wild ('?' :: pattern) (character :: value)
  | same : Wild pattern value → Wild (character :: pattern) (character :: value)

theorem Wild.append (first : Wild pattern value) (second : Wild pattern' value') :
    Wild (pattern ++ pattern') (value ++ value') := by
  induction first with
  | nil => exact second
  | skip _ ih => exact .skip ih
  | take _ ih => exact .take ih
  | any _ ih => exact .any ih
  | same _ ih => exact .same ih

theorem Wild.star (value : List Char) : Wild ['*'] value := by
  induction value with
  | nil => exact .skip .nil
  | cons character value ih => exact .take ih

theorem Wild.stars {pattern : List Char} (stars : pattern.all (· = '*') = true) :
    Wild pattern [] := by
  induction pattern with
  | nil => exact .nil
  | cons character pattern ih =>
    simp only [List.all_cons, Bool.and_eq_true, decide_eq_true_eq] at stars
    rw [stars.1]
    exact .skip (ih stars.2)

/-- A match behind a `*` extends by any one character. -/
theorem Wild.extend {front : List Char} (matched : Wild (front ++ ['*']) value) :
    Wild (front ++ ['*']) (value ++ [character]) := by
  generalize whole : front ++ ['*'] = pattern at matched
  induction matched generalizing front with
  | nil => simp at whole
  | skip inner ih =>
    cases front with
    | nil =>
      cases whole
      exact Wild.star _
    | cons head front =>
      cases whole
      exact .skip (ih rfl)
  | take _ ih => exact .take (ih whole)
  | any inner ih =>
    cases front with
    | nil => cases whole
    | cons head front =>
      cases whole
      exact .any (ih rfl)
  | same inner ih =>
    cases front with
    | nil =>
      cases whole
      exact Wild.star _
    | cons head front =>
      cases whole
      exact .same (ih rfl)

/-- What the loop has matched so far, and what it can resume from. -/
structure Scan.Matched (pattern value : List Char) (scan : Scan) : Prop where
  done : Wild (pattern.take scan.patternIndex) (value.take scan.valueIndex)
  resume : ∀ point ∈ scan.star, pattern[point.1]? = some '*' ∧
    Wild (pattern.take (point.1 + 1)) (value.take point.2)

theorem Scan.Matched.backtrack {value : List Char} {scan : Scan}
    (matched : scan.Matched pattern value) (inside : scan.valueIndex < value.length)
    (moved : scan.backtrack = some after) : after.Matched pattern value := by
  obtain ⟨patternIndex, valueIndex, star, behind⟩ := scan
  cases star with
  | none => cases moved
  | some point =>
    cases moved
    have reached : point.2 ≤ valueIndex := behind point rfl
    have bound : valueIndex < value.length := inside
    obtain ⟨isStar, resumed⟩ := matched.resume point rfl
    have longer : Wild (pattern.take (point.1 + 1)) (value.take (point.2 + 1)) := by
      rw [List.take_add_one, isStar] at resumed ⊢
      rw [List.take_add_one, List.getElem?_eq_getElem (show point.2 < value.length by omega)]
      exact resumed.extend
    exact ⟨longer, fun other same => by cases same; exact ⟨isStar, longer⟩⟩

theorem Scan.Matched.next {value : List Char} {scan : Scan} (matched : scan.Matched pattern value)
    (inside : scan.valueIndex < value.length)
    (moved : scan.next pattern value[scan.valueIndex] = some after) :
    after.Matched pattern value := by
  unfold Scan.next at moved
  split at moved
  · exact matched.backtrack inside moved
  · rename_i expected here
    split at moved
    · rename_i isStar
      cases moved
      have longer : Wild (pattern.take (scan.patternIndex + 1)) (value.take scan.valueIndex) := by
        rw [List.take_add_one, here, isStar]
        have both := matched.done.append (Wild.star [])
        rw [List.append_nil] at both
        exact both
      refine ⟨longer, fun point same => ?_⟩
      cases same
      exact ⟨isStar ▸ here, longer⟩
    · split at moved
      · rename_i fits
        cases moved
        refine ⟨?_, matched.resume⟩
        have one : Wild [expected] [value[scan.valueIndex]] := by
          rcases fits with wild | literal
          · rw [wild]
            exact .any .nil
          · rw [literal]
            exact .same .nil
        simp only [List.take_add_one, here, List.getElem?_eq_getElem inside]
        exact matched.done.append one
      · exact matched.backtrack inside moved

private theorem wild_of_matchesLoop {pattern value : List Char} {scan : Scan}
    (accepted : matchesLoop pattern value scan = true) (matched : scan.Matched pattern value) :
    Wild pattern value := by
  fun_induction matchesLoop pattern value scan with
  | case1 scan inside after moved ih => exact ih accepted (matched.next inside moved)
  | case2 => cases accepted
  | case3 scan outside =>
    have whole := matched.done.append (Wild.stars accepted)
    rw [List.take_append_drop, List.append_nil, List.take_of_length_le (by omega)] at whole
    exact whole

theorem wild_of_matches {pattern : ExitPattern} {code : ExitCode}
    (accepted : ExitPattern.matches pattern code = true) :
    Wild pattern.value.toList code.value.toList :=
  wild_of_matchesLoop accepted ⟨.nil, by intro point same; cases same⟩

def memoKey (right : List Char) (leftIndex rightIndex : Nat) : Nat :=
  leftIndex * (right.length + 1) + rightIndex

/-- `intersects_from`: the answer and the memo with it. -/
def intersectsFrom (left right : List Char) (leftIndex rightIndex : Nat)
    (memo : List (Option Bool)) : Bool × List (Option Bool) :=
  let key := memoKey right leftIndex rightIndex
  match memo[key]?.join with
  | some cached => (cached, memo)
  | none =>
    let answer :=
      match foundLeft : left[leftIndex]?, foundRight : right[rightIndex]? with
      | none, none => (true, memo)
      | none, some _ => ((right.drop rightIndex).all (· = '*'), memo)
      | some _, none => ((left.drop leftIndex).all (· = '*'), memo)
      | some leftCharacter, some rightCharacter =>
        if leftCharacter = '*' then
          let first := intersectsFrom left right (leftIndex + 1) rightIndex memo
          if first.1 then first else intersectsFrom left right leftIndex (rightIndex + 1) first.2
        else if rightCharacter = '*' then
          let first := intersectsFrom left right leftIndex (rightIndex + 1) memo
          if first.1 then first else intersectsFrom left right (leftIndex + 1) rightIndex first.2
        else if leftCharacter = '?' ∨ rightCharacter = '?' ∨ leftCharacter = rightCharacter then
          intersectsFrom left right (leftIndex + 1) (rightIndex + 1) memo
        else (false, memo)
    (answer.1, answer.2.set key (some answer.1))
  termination_by (left.length - leftIndex) + (right.length - rightIndex)
  decreasing_by
    all_goals
      obtain ⟨_, _⟩ := List.getElem?_eq_some_iff.mp foundLeft
      obtain ⟨_, _⟩ := List.getElem?_eq_some_iff.mp foundRight
      omega

/-- Whether some exit code exists that both patterns match. -/
def ExitPattern.intersects (first second : ExitPattern) : Bool :=
  let left := first.value.toList
  let right := second.value.toList
  (intersectsFrom left right 0 0
    (List.replicate ((left.length + 1) * (right.length + 1)) none)).1

/-- The intersection search without its memo. -/
def meets : List Char → List Char → Bool
  | [], right => right.all (· = '*')
  | left :: lefts, [] => (left :: lefts).all (· = '*')
  | left :: lefts, right :: rights =>
    if left = '*' then meets lefts (right :: rights) || meets (left :: lefts) rights
    else if right = '*' then meets (left :: lefts) rights || meets lefts (right :: rights)
    else (left = '?' ∨ right = '?' ∨ left = right) && meets lefts rights
  termination_by left right => left.length + right.length

theorem Wild.nil_stars (matched : Wild pattern []) : pattern.all (· = '*') = true := by
  induction pattern with
  | nil => rfl
  | cons character pattern ih =>
    cases matched with
    | skip inner => simp [ih inner]

theorem Wild.star_cases (matched : Wild ('*' :: pattern) value) :
    Wild pattern value ∨ ∃ character rest, value = character :: rest ∧ Wild ('*' :: pattern) rest := by
  cases matched with
  | skip inner => exact .inl inner
  | take inner => exact .inr ⟨_, _, rfl, inner⟩
  | same inner => exact .inr ⟨_, _, rfl, .skip inner⟩

theorem Wild.head_cases (matched : Wild (head :: pattern) value) (literal : head ≠ '*') :
    ∃ character rest, value = character :: rest ∧ (head = '?' ∨ head = character) ∧
      Wild pattern rest := by
  cases matched with
  | skip inner => exact False.elim (literal rfl)
  | take inner => exact False.elim (literal rfl)
  | any inner => exact ⟨_, _, rfl, .inl rfl, inner⟩
  | same inner => exact ⟨_, _, rfl, .inr rfl, inner⟩

/-- Patterns that match a common value meet. -/
theorem Wild.meets (first : Wild left value) (second : Wild right value) :
    meets left right = true := by
  induction total : left.length + right.length + value.length using Nat.strong_induction_on
    generalizing left right value with
  | _ total ih =>
    match left, right with
    | [], right =>
      cases first
      rw [Plan.meets]
      exact second.nil_stars
    | head :: lefts, [] =>
      cases second
      rw [Plan.meets]
      exact first.nil_stars
    | head :: lefts, head' :: rights =>
      simp only [List.length_cons] at total
      by_cases leftStar : head = '*'
      · subst leftStar
        rcases first.star_cases with shorter | ⟨character, rest, rfl, longer⟩
        · have met := ih _ (by simp only [List.length_cons]; omega) shorter second rfl
          simp [Plan.meets, met]
        · simp only [List.length_cons] at total
          by_cases rightStar : head' = '*'
          · subst rightStar
            rcases second.star_cases with shorter | ⟨_, _, same, longer'⟩
            · have met := ih _ (by simp only [List.length_cons]; omega) first shorter rfl
              simp [Plan.meets, met]
            · cases same
              exact ih _ (by simp only [List.length_cons]; omega) longer longer' rfl
          · obtain ⟨_, _, same, _, inner⟩ := second.head_cases rightStar
            cases same
            have met := ih _ (by simp only [List.length_cons]; omega) longer inner rfl
            simp [Plan.meets, met]
      · obtain ⟨character, rest, rfl, fits, inner⟩ := first.head_cases leftStar
        simp only [List.length_cons] at total
        by_cases rightStar : head' = '*'
        · subst rightStar
          rcases second.star_cases with shorter | ⟨_, _, same, longer⟩
          · have met := ih _ (by simp only [List.length_cons]; omega) first shorter rfl
            simp [Plan.meets, leftStar, met]
          · cases same
            have met := ih _ (by simp only [List.length_cons]; omega) inner longer rfl
            simp [Plan.meets, leftStar, met]
        · obtain ⟨_, _, same, fits', inner'⟩ := second.head_cases rightStar
          cases same
          have met := ih _ (by omega) inner inner' rfl
          have agree : head = '?' ∨ head' = '?' ∨ head = head' := by
            rcases fits with wild | literal
            · exact .inl wild
            · rcases fits' with wild' | literal'
              · exact .inr (.inl wild')
              · exact .inr (.inr (literal.trans literal'.symm))
          simp [Plan.meets, leftStar, rightStar, met, agree]

section Memo

variable {left right : List Char}

/-- Every cached answer is the answer of the search. -/
def MemoSound (left right : List Char) (memo : List (Option Bool)) : Prop :=
  ∀ leftIndex rightIndex answer, leftIndex ≤ left.length → rightIndex ≤ right.length →
    memo[memoKey right leftIndex rightIndex]? = some (some answer) →
    answer = meets (left.drop leftIndex) (right.drop rightIndex)

private theorem memoKey_injective (inside : rightIndex ≤ right.length)
    (inside' : rightIndex' ≤ right.length)
    (same : memoKey right leftIndex rightIndex = memoKey right leftIndex' rightIndex') :
    leftIndex = leftIndex' ∧ rightIndex = rightIndex' := by
  unfold memoKey at same
  rcases Nat.lt_trichotomy leftIndex leftIndex' with before | rfl | after
  · have rows := Nat.mul_le_mul_right (right.length + 1) before
    rw [Nat.succ_mul] at rows
    omega
  · exact ⟨rfl, by omega⟩
  · have rows := Nat.mul_le_mul_right (right.length + 1) after
    rw [Nat.succ_mul] at rows
    omega

theorem MemoSound.set (sound : MemoSound left right memo) (inside : rightIndex ≤ right.length)
    (same : answer = meets (left.drop leftIndex) (right.drop rightIndex)) :
    MemoSound left right (memo.set (memoKey right leftIndex rightIndex) (some answer)) := by
  intro otherLeft otherRight cached boundLeft boundRight found
  rw [List.getElem?_set] at found
  split at found
  · rename_i key
    obtain ⟨rfl, rfl⟩ := memoKey_injective inside boundRight key
    split at found
    · cases found
      exact same
    · cases found
  · exact sound otherLeft otherRight cached boundLeft boundRight found

/-- A search result that agrees with `meets` and keeps the memo sound. -/
def Answers (left right : List Char) (leftIndex rightIndex : Nat)
    (result : Bool × List (Option Bool)) : Prop :=
  result.1 = meets (left.drop leftIndex) (right.drop rightIndex) ∧ MemoSound left right result.2

/-- Two searches in a row, the second only behind a failed first. -/
theorem Answers.orElse {first : Bool × List (Option Bool)}
    {second : List (Option Bool) → Bool × List (Option Bool)}
    (one : first.1 = found ∧ MemoSound left right first.2)
    (two : ∀ memo, MemoSound left right memo →
      (second memo).1 = found' ∧ MemoSound left right (second memo).2) :
    (if first.1 then first else second first.2).1 = (found || found') ∧
      MemoSound left right (if first.1 then first else second first.2).2 := by
  obtain ⟨answer, memo⟩ := first
  obtain ⟨rfl, sound⟩ := one
  cases answer with
  | true => exact ⟨rfl, sound⟩
  | false => exact ⟨by simpa using (two memo sound).1, (two memo sound).2⟩

/-- The memoised search answers as the search and keeps its memo sound. -/
private theorem intersectsFrom_answers (leftIndex rightIndex : Nat) (memo : List (Option Bool))
    (boundLeft : leftIndex ≤ left.length) (boundRight : rightIndex ≤ right.length)
    (sound : MemoSound left right memo) :
    Answers left right leftIndex rightIndex
      (intersectsFrom left right leftIndex rightIndex memo) := by
  induction rest : (left.length - leftIndex) + (right.length - rightIndex)
    using Nat.strong_induction_on generalizing leftIndex rightIndex memo with
  | _ rest ih =>
    rw [intersectsFrom]
    dsimp only
    split
    · rename_i cached found
      exact ⟨sound _ _ _ boundLeft boundRight (Option.join_eq_some_iff.mp found), sound⟩
    · suffices answers : ∀ answer, Answers left right leftIndex rightIndex answer →
          Answers left right leftIndex rightIndex
            (answer.1, answer.2.set (memoKey right leftIndex rightIndex) (some answer.1)) by
        apply answers
        split
        · rename_i endLeft endRight
          rw [List.getElem?_eq_none_iff] at endLeft endRight
          refine ⟨?_, sound⟩
          rw [List.drop_of_length_le endLeft, List.drop_of_length_le endRight, meets]
          rfl
        · rename_i endLeft _
          rw [List.getElem?_eq_none_iff] at endLeft
          refine ⟨?_, sound⟩
          rw [List.drop_of_length_le endLeft, meets]
        · rename_i character foundLeft endRight
          obtain ⟨inside, rfl⟩ := List.getElem?_eq_some_iff.mp foundLeft
          rw [List.getElem?_eq_none_iff] at endRight
          refine ⟨?_, sound⟩
          rw [List.drop_of_length_le endRight, List.drop_eq_getElem_cons inside, meets]
        · rename_i leftCharacter rightCharacter foundLeft foundRight
          obtain ⟨insideLeft, rfl⟩ := List.getElem?_eq_some_iff.mp foundLeft
          obtain ⟨insideRight, rfl⟩ := List.getElem?_eq_some_iff.mp foundRight
          have skipLeft : ∀ memo, MemoSound left right memo → Answers left right
              (leftIndex + 1) rightIndex (intersectsFrom left right (leftIndex + 1) rightIndex memo) :=
            fun memo sound => ih _ (by omega) _ _ memo insideLeft boundRight sound rfl
          have skipRight : ∀ memo, MemoSound left right memo → Answers left right
              leftIndex (rightIndex + 1) (intersectsFrom left right leftIndex (rightIndex + 1) memo) :=
            fun memo sound => ih _ (by omega) _ _ memo boundLeft insideRight sound rfl
          have skipBoth := ih _ (by omega) _ _ memo insideLeft insideRight sound rfl
          unfold Answers at skipLeft skipRight skipBoth ⊢
          rw [List.drop_eq_getElem_cons insideLeft, List.drop_eq_getElem_cons insideRight, meets]
          rw [List.drop_eq_getElem_cons insideRight] at skipLeft
          rw [List.drop_eq_getElem_cons insideLeft] at skipRight
          split
          · exact Answers.orElse (skipLeft memo sound) skipRight
          · split
            · exact Answers.orElse (skipRight memo sound) skipLeft
            · split
              · rename_i agree
                simpa [agree] using skipBoth
              · rename_i differ
                exact ⟨by simp [differ], sound⟩
      intro answer answers
      exact ⟨answers.1, answers.2.set boundRight answers.1⟩

end Memo

theorem intersects_eq_meets (first second : ExitPattern) :
    ExitPattern.intersects first second = meets first.value.toList second.value.toList := by
  have empty : MemoSound first.value.toList second.value.toList
      (List.replicate ((first.value.toList.length + 1) * (second.value.toList.length + 1)) none) := by
    intro _ _ answer _ _ found
    simp [List.getElem?_replicate] at found
  exact (intersectsFrom_answers 0 0 _ (Nat.zero_le _) (Nat.zero_le _) empty).1

/-- Patterns that match a common exit code are found to intersect. -/
theorem intersects_of_matches {first second : ExitPattern} {code : ExitCode}
    (matched : ExitPattern.matches first code = true)
    (matched' : ExitPattern.matches second code = true) :
    ExitPattern.intersects first second = true := by
  rw [intersects_eq_meets]
  exact (wild_of_matches matched).meets (wild_of_matches matched')

private theorem meets_comm (left right : List Char) : meets left right = meets right left := by
  induction left, right using meets.induct with
  | case1 right =>
    cases right with
    | nil => rfl
    | cons head rest => rw [meets, meets]
  | case2 left lefts => rw [meets, meets]
  | case3 lefts right rights skipLeft skipRight =>
    by_cases star : right = '*'
    · subst star
      rw [meets, if_pos rfl, skipLeft, skipRight, meets, if_pos rfl, Bool.or_comm]
    · rw [meets, if_pos rfl, skipLeft, skipRight, meets, if_neg star, if_pos rfl]
  | case4 left lefts rights single skipRight skipLeft =>
    rw [meets, if_neg single, if_pos rfl, skipRight, skipLeft, meets, if_pos rfl]
  | case5 left lefts right rights single single' both =>
    rw [meets, if_neg single, if_neg single', both, meets, if_neg single', if_neg single]
    have same : (left = '?' ∨ right = '?' ∨ left = right) ↔
        (right = '?' ∨ left = '?' ∨ right = left) := by
      rw [or_left_comm, @eq_comm _ left right]
    rw [decide_eq_decide.mpr same]

theorem intersects_comm (first second : ExitPattern) :
    ExitPattern.intersects first second = ExitPattern.intersects second first := by
  rw [intersects_eq_meets, intersects_eq_meets, meets_comm]

/-- More literal characters first, then fewer wildcards, then more bytes. -/
structure PatternSpecificity where
  literals : Nat
  wildcards : Nat
  bytes : Nat
  deriving DecidableEq, Repr

namespace PatternSpecificity

def rank (specificity : PatternSpecificity) : ℕ ×ₗ ℕᵒᵈ ×ₗ ℕ :=
  toLex (specificity.literals, toLex (OrderDual.toDual specificity.wildcards, specificity.bytes))

private theorem rank_injective : Function.Injective rank := by
  intro left right same
  cases left
  cases right
  simpa [rank] using same

instance : LinearOrder PatternSpecificity := LinearOrder.lift' rank rank_injective

end PatternSpecificity

def ExitPattern.specificity (pattern : ExitPattern) : PatternSpecificity :=
  let wildcards := pattern.value.toList.countP fun character => character = '*' ∨ character = '?'
  ⟨pattern.value.toList.length - wildcards, wildcards, pattern.value.utf8ByteSize⟩

end OxideBatch.Plan
