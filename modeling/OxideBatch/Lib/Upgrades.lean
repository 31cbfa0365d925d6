import Mathlib
import OxideBatch.Lib.Program

/-! Walking the declared upgrades of a versioned payload: each step takes the only
edge that leaves the version reached, and the payload is checked behind it. -/

namespace OxideBatch.Lib

/-- One directed upgrade; it raises the version. -/
structure Upgrade (Version Payload Fault : Type) [LT Version] where
  source : Version
  target : Version
  apply : Payload → Except Fault Payload
  increasing : source < target

/-- Why a walk ends before the version it is for. -/
inductive UpgradeError (Version Fault Rejection : Type) where
  | noPath (found : Version)
  | ambiguous (source : Version)
  | overshoots (target : Version)
  | tooLong
  | apply (fault : Fault)
  | rejected (reason : Rejection)
  deriving DecidableEq

variable {Version Payload Fault Rejection : Type} [LinearOrder Version]
  (edges : List (Upgrade Version Payload Fault)) (check : Payload → Except Rejection Unit)
  (current : Version)

/-- Walks from a version to `current` with at most `left` more upgrades. -/
def upgradeChain (left : Nat) (version : Version) (payload : Payload) :
    Except (UpgradeError Version Fault Rejection) Payload :=
  if version < current then
    match edges.filter (·.source = version) with
    | [] => .error (.noPath version)
    | [edge] =>
      if current < edge.target then .error (.overshoots edge.target)
      else
        match left with
        | 0 => .error .tooLong
        | left + 1 =>
          match edge.apply payload with
          | .error fault => .error (.apply fault)
          | .ok upgraded =>
            match check upgraded with
            | .error reason => .error (.rejected reason)
            | .ok () => upgradeChain left edge.target upgraded
    | _ => .error (.ambiguous version)
  else .ok payload

/-- The declared edges lead a payload from one version to `current` in at most
`left` steps, and the payload behind every step is accepted. -/
inductive Leads : Nat → Version → Payload → Payload → Prop
  | done {left : Nat} {version : Version} {payload : Payload} (reached : current ≤ version) :
      Leads left version payload payload
  | step {left : Nat} {version : Version} {payload upgraded result : Payload}
      {edge : Upgrade Version Payload Fault} (behind : version < current)
      (only : edges.filter (·.source = version) = [edge]) (within : edge.target ≤ current)
      (applied : edge.apply payload = .ok upgraded) (accepted : check upgraded = .ok ())
      (rest : Leads left edge.target upgraded result) : Leads (left + 1) version payload result

variable {edges check current}

theorem upgradeChain_current {left : Nat} {version : Version} {payload : Payload}
    (reached : current ≤ version) :
    upgradeChain edges check current left version payload = .ok payload := by
  rw [upgradeChain.eq_def, if_neg (not_lt.mpr reached)]

/-- A walk succeeds exactly along a declared path. -/
theorem upgradeChain_ok_iff {left : Nat} {version : Version} {payload result : Payload} :
    upgradeChain edges check current left version payload = .ok result ↔
      Leads edges check current left version payload result := by
  constructor
  · intro walked
    induction left generalizing version payload with
    | zero =>
      rw [upgradeChain] at walked
      split at walked
      · split at walked
        · cases walked
        · split at walked <;> cases walked
        · cases walked
      · rename_i behind
        cases walked
        exact .done (not_lt.mp behind)
    | succ left ih =>
      rw [upgradeChain] at walked
      split at walked
      · rename_i behind
        split at walked
        · cases walked
        · rename_i edge only
          split at walked
          · cases walked
          · rename_i within
            cases applied : edge.apply payload with
            | error fault => simp [applied] at walked
            | ok upgraded =>
              cases accepted : check upgraded with
              | error reason => simp [applied, accepted] at walked
              | ok =>
                simp only [applied, accepted] at walked
                exact .step behind only (not_lt.mp within) applied accepted (ih walked)
        · cases walked
      · rename_i behind
        cases walked
        exact .done (not_lt.mp behind)
  · intro path
    induction path with
    | done reached => exact upgradeChain_current reached
    | step behind only within applied accepted _ ih =>
      rw [upgradeChain, if_pos behind, only]
      simp only [not_lt.mpr within, if_false, applied, accepted, ih]

/-- A path that takes a step leaves an accepted payload. -/
theorem Leads.accepted {left : Nat} {version : Version} {payload result : Payload}
    (path : Leads edges check current left version payload result) :
    result = payload ∧ current ≤ version ∨ check result = .ok () ∧ version < current := by
  induction path with
  | done reached => exact .inl ⟨rfl, reached⟩
  | step behind only within applied accepted _ ih =>
    right
    constructor
    · rcases ih with ⟨same, _⟩ | ⟨accepts, _⟩
      · rw [same]
        exact accepted
      · exact accepts
    · exact behind

section Order

variable (edges) (check) (current)

/-- A walk reaches a version that is still behind and takes the edges leaving it up. -/
inductive UpgradeVisits : Nat → Version → Payload → Version → Prop
  | here {left : Nat} {version : Version} {payload : Payload} (behind : version < current) :
      UpgradeVisits left version payload version
  | onward {left : Nat} {version visited : Version} {payload upgraded : Payload}
      {edge : Upgrade Version Payload Fault} (behind : version < current)
      (only : edges.filter (·.source = version) = [edge]) (within : edge.target ≤ current)
      (applied : edge.apply payload = .ok upgraded) (accepted : check upgraded = .ok ())
      (rest : UpgradeVisits left edge.target upgraded visited) :
      UpgradeVisits (left + 1) version payload visited

variable {edges check current}

/-- Two orders of the edges leaving a version are both empty, one and the same edge, or forks. -/
private theorem outgoing_cases {α : Type} {left right : List α} (same : left.Perm right) :
    (left = [] ∧ right = []) ∨ (∃ edge, left = [edge] ∧ right = [edge]) ∨
      ∃ first second others first' second' others',
        left = first :: second :: others ∧ right = first' :: second' :: others' := by
  have many := same.length_eq
  match left, right with
  | [], [] => exact .inl ⟨rfl, rfl⟩
  | [edge], [edge'] =>
    exact .inr (.inl ⟨edge, rfl, by rw [List.singleton_perm_singleton.mp same]⟩)
  | first :: second :: others, first' :: second' :: others' =>
    exact .inr (.inr ⟨first, second, others, first', second', others', rfl, rfl⟩)
  | [], _ :: _ | _ :: _, [] | [_], _ :: _ :: _ | _ :: _ :: _, [_] => simp at many

/-- A walk depends only on the edges that leave the versions it visits, and not on the order
they are declared in. -/
theorem upgradeChain_of_visited {declared : List (Upgrade Version Payload Fault)} {left : Nat}
    {version : Version} {payload : Payload}
    (same : ∀ visited, UpgradeVisits edges check current left version payload visited →
      (edges.filter (·.source = visited)).Perm (declared.filter (·.source = visited))) :
    upgradeChain declared check current left version payload =
      upgradeChain edges check current left version payload := by
  induction left generalizing version payload with
  | zero =>
    by_cases behind : version < current
    · rw [upgradeChain.eq_def, upgradeChain.eq_def edges]
      rcases outgoing_cases (same version (.here behind)) with
        ⟨shape, shape'⟩ | ⟨edge, shape, shape'⟩ | ⟨_, _, _, _, _, _, shape, shape'⟩
      all_goals simp only [shape, shape']
    · rw [upgradeChain_current (not_lt.mp behind), upgradeChain_current (not_lt.mp behind)]
  | succ left ih =>
    by_cases behind : version < current
    · rw [upgradeChain.eq_def, upgradeChain.eq_def edges]
      simp only [behind, if_true]
      rcases outgoing_cases (same version (.here behind)) with
        ⟨shape, shape'⟩ | ⟨edge, shape, shape'⟩ | ⟨_, _, _, _, _, _, shape, shape'⟩
      · simp only [shape, shape']
      · simp only [shape, shape']
        by_cases beyond : current < edge.target
        · simp only [beyond, if_true]
        · simp only [beyond, if_false]
          cases applied : edge.apply payload with
          | error fault => rfl
          | ok upgraded =>
            cases accepted : check upgraded with
            | error reason => simp only [accepted]
            | ok =>
              simp only [accepted]
              exact ih fun visited later => same visited
                (.onward behind shape (not_lt.mp beyond) applied accepted later)
      · simp only [shape, shape']
    · rw [upgradeChain_current (not_lt.mp behind), upgradeChain_current (not_lt.mp behind)]

theorem upgradeChain_perm {declared : List (Upgrade Version Payload Fault)}
    (same : edges.Perm declared) (left : Nat) (version : Version) (payload : Payload) :
    upgradeChain declared check current left version payload =
      upgradeChain edges check current left version payload :=
  upgradeChain_of_visited fun _ _ => same.filter _

end Order

section Paths

variable (edges) (check) (current)

/-- The edges whose upgrade a walk applies, in order, and how the walk ends. -/
def tracedChain (left : Nat) (version : Version) (payload : Payload) :
    List (Upgrade Version Payload Fault) ×
      Except (UpgradeError Version Fault Rejection) Payload :=
  if version < current then
    match edges.filter (·.source = version) with
    | [] => ([], .error (.noPath version))
    | [edge] =>
      if current < edge.target then ([], .error (.overshoots edge.target))
      else
        match left with
        | 0 => ([], .error .tooLong)
        | left + 1 =>
          match edge.apply payload with
          | .error fault => ([edge], .error (.apply fault))
          | .ok upgraded =>
            match check upgraded with
            | .error reason => ([edge], .error (.rejected reason))
            | .ok () =>
              let later := tracedChain left edge.target upgraded
              (edge :: later.1, later.2)
    | _ => ([], .error (.ambiguous version))
  else ([], .ok payload)

/-- One upgrade and the check behind it. -/
def applyChecked (payload : Payload) (edge : Upgrade Version Payload Fault) :
    Except (UpgradeError Version Fault Rejection) Payload :=
  match edge.apply payload with
  | .error fault => .error (.apply fault)
  | .ok upgraded =>
    match check upgraded with
    | .error reason => .error (.rejected reason)
    | .ok () => .ok upgraded

/-- Declared edges one behind the other, from one version to another. -/
inductive UpgradePath : Version → List (Upgrade Version Payload Fault) → Version → Prop
  | here {version : Version} : UpgradePath version [] version
  | step {version final : Version} {edge : Upgrade Version Payload Fault}
      {rest : List (Upgrade Version Payload Fault)} (declared : edge ∈ edges)
      (leaves : edge.source = version) (onward : UpgradePath edge.target rest final) :
      UpgradePath version (edge :: rest) final

variable {edges check current}

namespace UpgradePath

variable {version final : Version} {path other : List (Upgrade Version Payload Fault)}

/-- A path only goes up, and every edge of it leaves a version it has come to. -/
theorem rises (along : UpgradePath edges version path final) :
    version ≤ final ∧ ∀ edge ∈ path, version ≤ edge.source := by
  induction along with
  | here => exact ⟨le_refl _, by simp⟩
  | step declared leaves onward ih =>
    rename_i edge rest
    subst leaves
    refine ⟨(edge.increasing.le.trans ih.1), fun later member => ?_⟩
    rcases List.mem_cons.mp member with rfl | behind
    · exact le_refl _
    · exact edge.increasing.le.trans (ih.2 later behind)

/-- No version is left twice. -/
theorem increasing (along : UpgradePath edges version path final) :
    path.Pairwise (fun earlier later => earlier.target ≤ later.source) ∧
      (path.map Upgrade.source).Pairwise (· < ·) := by
  induction along with
  | here => exact ⟨.nil, .nil⟩
  | step declared leaves onward ih =>
    rename_i edge rest
    have above := onward.rises.2
    refine ⟨List.pairwise_cons.mpr ⟨above, ih.1⟩, ?_⟩
    rw [List.map_cons, List.pairwise_cons]
    refine ⟨fun source member => ?_, ih.2⟩
    obtain ⟨later, behind, rfl⟩ := List.mem_map.mp member
    exact edge.increasing.trans_le (above later behind)

end UpgradePath

/-- A walk that succeeds has applied the edges of the one path there is, in order. -/
theorem tracedChain_ok {left : Nat} {version : Version} {payload result : Payload}
    (within : version ≤ current)
    (walked : upgradeChain edges check current left version payload = .ok result) :
    let path := (tracedChain edges check current left version payload).1
    UpgradePath edges version path current ∧ path.length ≤ left ∧
      path.foldlM (applyChecked check) payload = .ok result ∧
      ∀ other, UpgradePath edges version other current → other = path := by
  have led := upgradeChain_ok_iff.mp walked
  clear walked
  induction led with
  | @done left version payload reached =>
    have arrived := le_antisymm within reached
    subst arrived
    rw [tracedChain.eq_def]
    simp only [lt_irrefl, if_false]
    refine ⟨.here, Nat.zero_le _, rfl, fun other along => ?_⟩
    cases along with
    | here => rfl
    | @step _ _ edge _ _ leaves onward =>
      exact absurd (leaves ▸ edge.increasing) (not_lt.mpr onward.rises.1)
  | @step left version payload upgraded result edge behind only inside applied accepted _ ih =>
    obtain ⟨along, short, folded, unique⟩ := ih inside
    have leaves : edge ∈ edges ∧ edge.source = version := by
      have member : edge ∈ edges.filter (·.source = version) := by rw [only]; exact .head _
      simpa using member
    have taken : tracedChain edges check current (left + 1) version payload =
        (edge :: (tracedChain edges check current left edge.target upgraded).1,
          (tracedChain edges check current left edge.target upgraded).2) := by
      rw [tracedChain.eq_def]
      simp only [behind, if_true, only, not_lt.mpr inside, if_false, applied, accepted]
    rw [taken]
    refine ⟨.step leaves.1 leaves.2 along, Nat.succ_le_succ short, ?_, fun other path => ?_⟩
    · rw [List.foldlM_cons]
      simp only [applyChecked, applied, accepted]
      exact folded
    · cases path with
      | here => exact absurd behind (lt_irrefl _)
      | @step _ _ first rest declared source onward =>
        have member : first ∈ edges.filter (·.source = version) := by simp [declared, source]
        rw [only, List.mem_singleton] at member
        subst member
        rw [unique rest onward]

theorem tracedChain_length (left : Nat) (version : Version) (payload : Payload) :
    (tracedChain edges check current left version payload).1.length ≤ left := by
  induction left generalizing version payload with
  | zero =>
    rw [tracedChain.eq_def]
    split
    · split
      · exact Nat.le_refl _
      · split <;> exact Nat.le_refl _
      · exact Nat.le_refl _
    · exact Nat.le_refl _
  | succ left ih =>
    rw [tracedChain.eq_def]
    split
    · split
      · exact Nat.zero_le _
      · rename_i edge only
        split
        · exact Nat.zero_le _
        · cases applied : edge.apply payload with
          | error fault => exact Nat.succ_le_succ (Nat.zero_le _)
          | ok upgraded =>
            cases accepted : check upgraded with
            | error reason =>
              simp only [accepted]
              exact Nat.succ_le_succ (Nat.zero_le _)
            | ok =>
              simp only [accepted]
              exact Nat.succ_le_succ (ih edge.target upgraded)
      · exact Nat.zero_le _
    · exact Nat.zero_le _

end Paths

/-- How a walk over declared edges answers, whatever order they are declared in: `walk`
gives the answer for a list of edges and `applied` the edges whose upgrade it applies. -/
structure OrderFree {Answer : Type} (edges : List (Upgrade Version Payload Fault))
    (check : Payload → Except Rejection Unit) (current : Version) (limit : Nat)
    (recorded : Version) (payload : Payload)
    (walk : List (Upgrade Version Payload Fault) → Except Answer Payload)
    (applied : List (Upgrade Version Payload Fault)) : Prop where
  permuted : ∀ declared, edges.Perm declared → walk declared = walk edges
  bounded : applied.length ≤ limit
  /-- Behind a success lies the only path there is, which rises and was taken edge by edge. -/
  path : ∀ result, walk edges = .ok result →
    UpgradePath edges recorded applied current ∧ (applied.map Upgrade.source).Pairwise (· < ·) ∧
      applied.foldlM (applyChecked check) payload = .ok result ∧
      ∀ other, UpgradePath edges recorded other current → other = applied
  /-- Edges that leave no visited version do not matter, to an error as little as to a result. -/
  visited : ∀ declared,
    (∀ version, UpgradeVisits edges check current limit recorded payload version →
      (edges.filter (·.source = version)).Perm (declared.filter (·.source = version))) →
    walk declared = walk edges

theorem upgradeChain_orderFree {Answer : Type} {limit : Nat} {recorded : Version}
    {payload : Payload} (within : recorded ≤ current)
    (report : UpgradeError Version Fault Rejection → Answer) :
    OrderFree edges check current limit recorded payload
      (fun declared => (upgradeChain declared check current limit recorded payload).mapError report)
      (tracedChain edges check current limit recorded payload).1 where
  permuted declared same := by rw [upgradeChain_perm same]
  bounded := tracedChain_length limit recorded payload
  path result walked := by
    obtain ⟨along, _, folded, unique⟩ := tracedChain_ok within (Program.mapError_ok.mp walked)
    exact ⟨along, along.increasing.2, folded, unique⟩
  visited declared same := by rw [upgradeChain_of_visited same]

end OxideBatch.Lib
