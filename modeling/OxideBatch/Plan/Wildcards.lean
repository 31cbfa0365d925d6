import OxideBatch.Plan.Pattern

/-! The wildcard semantics of exit patterns: the matcher misses no match, and two patterns
intersect exactly when they match a common text. -/

namespace OxideBatch.Plan

variable {pattern text : List Char}

/-- What may stand in a text for one character of a pattern. -/
def Stands (character : Char) (part : List Char) : Prop :=
  if character = '*' then True
  else if character = '?' then part.length = 1
  else part = [character]

/-- A text obtained from a pattern: each `?` replaced by one character and each `*` by
any text. -/
def Obtained (pattern text : List Char) : Prop :=
  ∃ parts, List.Forall₂ Stands pattern parts ∧ text = parts.flatten

theorem Stands.star (part : List Char) : Stands '*' part := by
  rw [Stands, if_pos rfl]
  trivial

theorem Obtained.cons (first : Stands character part) (rest : Obtained pattern text) :
    Obtained (character :: pattern) (part ++ text) := by
  obtain ⟨parts, stand, rfl⟩ := rest
  exact ⟨part :: parts, .cons first stand, rfl⟩

private theorem obtained_of_wild (matched : Wild pattern text) : Obtained pattern text := by
  induction matched with
  | nil => exact ⟨[], .nil, rfl⟩
  | skip _ ih => exact ih.cons (Stands.star [])
  | @take _ _ character _ ih =>
    obtain ⟨parts, stand, rfl⟩ := ih
    cases stand with
    | @cons _ part _ parts _ stand =>
      exact ⟨(character :: part) :: parts, .cons (Stands.star _) stand, rfl⟩
  | @any _ _ character _ ih =>
    have stand : Stands '?' [character] := rfl
    exact ih.cons stand
  | @same _ _ character _ ih =>
    have stand : Stands character [character] := by
      unfold Stands
      split
      · trivial
      · split <;> rfl
    exact ih.cons stand

theorem Wild.prepend (matched : Wild ('*' :: pattern) text) (part : List Char) :
    Wild ('*' :: pattern) (part ++ text) := by
  induction part with
  | nil => exact matched
  | cons character part ih => exact .take ih

private theorem wild_of_obtained (obtained : Obtained pattern text) : Wild pattern text := by
  obtain ⟨parts, stand, rfl⟩ := obtained
  induction stand with
  | nil => exact .nil
  | @cons character part pattern parts first _ ih =>
    unfold Stands at first
    split at first
    · rename_i star
      subst star
      exact (Wild.skip ih).prepend part
    · split at first
      · rename_i question
        subst question
        obtain ⟨single, rfl⟩ := List.length_eq_one_iff.mp first
        exact .any ih
      · subst first
        exact .same ih

private theorem wild_iff_obtained : Wild pattern text ↔ Obtained pattern text :=
  ⟨obtained_of_wild, wild_of_obtained⟩

/-- Behind a `*` a match of a later part of the text is one of every earlier part. -/
theorem Wild.earlier {value : List Char} (matched : Wild ('*' :: pattern) (value.drop later))
    (before : now ≤ later) : Wild ('*' :: pattern) (value.drop now) := by
  have whole := matched.prepend ((value.drop now).take (later - now))
  have parts : value.drop later = (value.drop now).drop (later - now) := by
    rw [List.drop_drop, Nat.add_sub_cancel' before]
  rw [parts, List.take_append_drop] at whole
  exact whole

/-- What matches behind a `*` matches from some position on. -/
theorem Wild.resumes {value : List Char} (matched : Wild ('*' :: pattern) (value.drop start))
    (inside : start ≤ value.length) :
    ∃ position, start ≤ position ∧ position ≤ value.length ∧ Wild pattern (value.drop position) := by
  induction rest : value.length - start generalizing start with
  | zero =>
    have ended : start = value.length := by omega
    subst ended
    rw [List.drop_length] at matched
    cases matched with
    | skip inner => exact ⟨value.length, Nat.le_refl _, Nat.le_refl _, by simpa using inner⟩
  | succ rest ih =>
    rcases matched.star_cases with here | ⟨character, tail, shape, longer⟩
    · exact ⟨start, Nat.le_refl _, inside, here⟩
    · have room : start < value.length := by omega
      rw [List.drop_eq_getElem_cons room] at shape
      obtain ⟨_, rfl⟩ := List.cons.inj shape
      obtain ⟨position, after, bound, found⟩ := ih longer room (by omega)
      exact ⟨position, by omega, bound, found⟩

/-- Each character other than `*` takes up one character of the text. -/
theorem Wild.segment {segment value : List Char} (plain : ∀ character ∈ segment, character ≠ '*')
    (matched : Wild (segment ++ pattern) (value.drop position)) (inside : position ≤ value.length) :
    position + segment.length ≤ value.length ∧
      Wild pattern (value.drop (position + segment.length)) := by
  induction segment generalizing position with
  | nil => exact ⟨inside, matched⟩
  | cons head segment ih =>
    obtain ⟨character, rest, shape, _, inner⟩ :=
      Wild.head_cases matched (plain head List.mem_cons_self)
    have room : position < value.length := by
      rcases Nat.lt_or_ge position value.length with room | ended
      · exact room
      · rw [List.drop_of_length_le ended] at shape
        cases shape
    rw [List.drop_eq_getElem_cons room] at shape
    obtain ⟨_, rfl⟩ := List.cons.inj shape
    obtain ⟨bound, found⟩ := ih (fun other member => plain other (List.mem_cons_of_mem _ member))
      inner room
    rw [List.length_cons, Nat.add_comm segment.length, ← Nat.add_assoc]
    exact ⟨bound, found⟩

/-- What the loop may still find: a match from where it stands, or one from behind the
resume point of the last `*`. Between that `*` and where it stands are no others. -/
structure Scan.Open (pattern value : List Char) (scan : Scan) : Prop where
  inside : scan.valueIndex ≤ value.length
  plain : ∀ point ∈ scan.star, ∃ segment, (∀ character ∈ segment, character ≠ '*') ∧
    pattern.drop (point.1 + 1) = segment ++ pattern.drop scan.patternIndex ∧
    scan.valueIndex = point.2 + segment.length
  found : Wild (pattern.drop scan.patternIndex) (value.drop scan.valueIndex) ∨
    ∃ point ∈ scan.star, point.2 < value.length ∧
      Wild ('*' :: pattern.drop (point.1 + 1)) (value.drop (point.2 + 1))

namespace Scan.Open

variable {pattern value : List Char} {scan after : Scan}

/-- A match from behind the resume point leaves the rest of the pattern a match from behind
where the loop stands. -/
theorem later (opened : scan.Open pattern value) (member : point ∈ scan.star)
    (room : point.2 < value.length)
    (matched : Wild ('*' :: pattern.drop (point.1 + 1)) (value.drop (point.2 + 1))) :
    ∃ position, scan.valueIndex < position ∧ position ≤ value.length ∧
      Wild (pattern.drop scan.patternIndex) (value.drop position) := by
  obtain ⟨segment, plain, shape, reached⟩ := opened.plain point member
  obtain ⟨position, behind, bound, found⟩ := matched.resumes room
  rw [shape] at found
  obtain ⟨fits, rest⟩ := Wild.segment plain found bound
  exact ⟨position + segment.length, by omega, fits, rest⟩

/-- A loop that cannot match from where it stands resumes behind its last `*`. -/
theorem backtrack (opened : scan.Open pattern value)
    (stuck : ¬ Wild (pattern.drop scan.patternIndex) (value.drop scan.valueIndex)) :
    ∃ after, scan.backtrack = some after ∧ after.Open pattern value := by
  rcases opened.found with here | ⟨point, member, room, matched⟩
  · exact False.elim (stuck here)
  · refine ⟨⟨point.1 + 1, point.2 + 1, some (point.1, point.2 + 1), by simp⟩, ?_, ?_⟩
    · unfold Scan.backtrack
      rw [Option.mem_def.mp member]
      rfl
    · refine ⟨room, fun other same => ?_, ?_⟩
      · cases same
        exact ⟨[], by simp, rfl, rfl⟩
      · rcases matched.star_cases with here | ⟨character, rest, shape, longer⟩
        · exact .inl here
        · have more : point.2 + 1 < value.length := by
            rcases Nat.lt_or_ge (point.2 + 1) value.length with more | ended
            · exact more
            · rw [List.drop_of_length_le ended] at shape
              cases shape
          rw [List.drop_eq_getElem_cons more] at shape
          obtain ⟨_, rfl⟩ := List.cons.inj shape
          exact .inr ⟨_, rfl, more, longer⟩

theorem next (opened : scan.Open pattern value) (inside : scan.valueIndex < value.length) :
    ∃ after, scan.next pattern value[scan.valueIndex] = some after ∧
      after.Open pattern value := by
  unfold Scan.next
  split
  · rename_i ended
    refine opened.backtrack fun matched => ?_
    rw [List.drop_of_length_le (List.getElem?_eq_none_iff.mp ended),
      List.drop_eq_getElem_cons inside] at matched
    cases matched
  · rename_i expected here
    obtain ⟨bound, rfl⟩ := List.getElem?_eq_some_iff.mp here
    have front := List.drop_eq_getElem_cons bound
    split
    · rename_i star
      refine ⟨_, rfl, opened.inside, fun point same => ?_, ?_⟩
      · cases same
        exact ⟨[], by simp, rfl, rfl⟩
      · have matched : Wild ('*' :: pattern.drop (scan.patternIndex + 1))
            (value.drop scan.valueIndex) := by
          rw [← star, ← front]
          rcases opened.found with here | ⟨point, member, room, matched⟩
          · exact here
          · obtain ⟨position, behind, _, found⟩ := opened.later member room matched
            rw [front, star] at found ⊢
            exact found.earlier behind.le
        rcases matched.star_cases with here | ⟨character, rest, shape, longer⟩
        · exact .inl here
        · rw [List.drop_eq_getElem_cons inside] at shape
          obtain ⟨_, rfl⟩ := List.cons.inj shape
          exact .inr ⟨_, rfl, inside, longer⟩
    · rename_i literal
      split
      · refine ⟨_, rfl, inside, fun point member => ?_, ?_⟩
        · obtain ⟨segment, plain, shape, reached⟩ := opened.plain point member
          refine ⟨segment ++ [pattern[scan.patternIndex]], ?_, ?_, ?_⟩
          · intro character member
            rcases List.mem_append.mp member with old | new
            · exact plain character old
            · rw [List.mem_singleton.mp new]
              exact literal
          · rw [shape, front, List.append_assoc]
            rfl
          · rw [List.length_append, List.length_singleton]
            exact congrArg (· + 1) reached
        · rcases opened.found with here | other
          · rw [front, List.drop_eq_getElem_cons inside] at here
            obtain ⟨_, _, shape, _, inner⟩ := here.head_cases literal
            obtain ⟨_, rfl⟩ := List.cons.inj shape
            exact .inl inner
          · exact .inr other
      · rename_i differs
        refine opened.backtrack fun matched => ?_
        rw [front, List.drop_eq_getElem_cons inside] at matched
        obtain ⟨_, _, shape, fits, _⟩ := matched.head_cases literal
        obtain ⟨same, _⟩ := List.cons.inj shape
        exact differs (same ▸ fits)

end Scan.Open

private theorem matchesLoop_of_open {pattern value : List Char} {scan : Scan}
    (opened : scan.Open pattern value) : matchesLoop pattern value scan = true := by
  fun_induction matchesLoop pattern value scan with
  | case1 scan inside after moved ih =>
    obtain ⟨_, same, kept⟩ := opened.next inside
    cases moved.symm.trans same
    exact ih kept
  | case2 scan inside stuck =>
    obtain ⟨_, same, _⟩ := opened.next inside
    cases stuck.symm.trans same
  | case3 scan outside =>
    rcases opened.found with here | ⟨point, member, room, matched⟩
    · rw [List.drop_of_length_le (Nat.le_of_not_lt outside)] at here
      exact here.nil_stars
    · obtain ⟨position, behind, bound, _⟩ := opened.later member room matched
      omega

/-- The matcher accepts what a pattern stands for, and nothing else. -/
private theorem matches_iff_wild (pattern : ExitPattern) (code : ExitCode) :
    ExitPattern.matches pattern code = true ↔ Wild pattern.value.toList code.value.toList := by
  constructor
  · exact wild_of_matches
  · intro matched
    exact matchesLoop_of_open ⟨Nat.zero_le _, (fun _ member => nomatch member), .inl matched⟩

/-- Patterns that meet match a common text. -/
private theorem common_of_meets {left right : List Char} (met : meets left right = true) :
    ∃ text, Wild left text ∧ Wild right text := by
  induction left, right using meets.induct with
  | case1 right =>
    rw [meets] at met
    exact ⟨[], .nil, Wild.stars met⟩
  | case2 left lefts =>
    rw [meets] at met
    exact ⟨[], Wild.stars met, .nil⟩
  | case3 lefts right rights skipLeft skipRight =>
    rw [meets, if_pos rfl, Bool.or_eq_true] at met
    rcases met with shorter | longer
    · obtain ⟨text, first, second⟩ := skipLeft shorter
      exact ⟨text, .skip first, second⟩
    · obtain ⟨text, first, second⟩ := skipRight longer
      exact ⟨right :: text, .take first, .same second⟩
  | case4 left lefts rights single skipRight skipLeft =>
    rw [meets, if_neg single, if_pos rfl, Bool.or_eq_true] at met
    rcases met with shorter | longer
    · obtain ⟨text, first, second⟩ := skipRight shorter
      exact ⟨text, first, .skip second⟩
    · obtain ⟨text, first, second⟩ := skipLeft longer
      exact ⟨left :: text, .same first, .take second⟩
  | case5 left lefts right rights single single' both =>
    rw [meets, if_neg single, if_neg single', Bool.and_eq_true, decide_eq_true_eq] at met
    obtain ⟨agree, rest⟩ := met
    obtain ⟨text, first, second⟩ := both rest
    rcases agree with rfl | rfl | rfl
    · exact ⟨right :: text, .any first, .same second⟩
    · exact ⟨left :: text, .same first, .any second⟩
    · exact ⟨left :: text, .same first, .same second⟩

private theorem meets_iff_common (left right : List Char) :
    meets left right = true ↔ ∃ text, Wild left text ∧ Wild right text :=
  ⟨common_of_meets, fun ⟨_, first, second⟩ => first.meets second⟩

/-- Exit patterns follow the wildcard semantics: a match is a replacement of the wildcards,
and patterns intersect exactly when some text is matched by both, whichever comes first and
whether or not the search keeps a memo. -/
theorem exit_patterns_follow_wildcards :
    (∀ (pattern : ExitPattern) (code : ExitCode), ExitPattern.matches pattern code = true ↔
      Obtained pattern.value.toList code.value.toList) ∧
    ∀ first second : ExitPattern,
      (ExitPattern.intersects first second = true ↔
        ∃ text, Obtained first.value.toList text ∧ Obtained second.value.toList text) ∧
      ExitPattern.intersects first second = ExitPattern.intersects second first ∧
      ExitPattern.intersects first second = meets first.value.toList second.value.toList := by
  refine ⟨fun pattern code => ?_, fun first second => ⟨?_, intersects_comm first second,
    intersects_eq_meets first second⟩⟩
  · rw [matches_iff_wild, wild_iff_obtained]
  · rw [intersects_eq_meets, meets_iff_common]
    simp only [wild_iff_obtained]

end OxideBatch.Plan
