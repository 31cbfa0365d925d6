import OxideBatch.Lib.History

/-! Nested iterations. An iteration is of a key under the path of the iterations around it.
The next one of a path and key is the successor of the last, until that is final. -/

namespace OxideBatch.Lib

/-- How a record names its iteration. -/
structure Iterated (ρ κ : Type) where
  path : ρ → List (κ × Nat)
  key : ρ → κ
  ordinal : ρ → Nat
  final : ρ → Bool

namespace Iterated

variable {ρ κ : Type} [DecidableEq κ] (iterated : Iterated ρ κ)

/-- The records of one path and key. -/
def own (history : List ρ) (path : List (κ × Nat)) (key : κ) : List ρ :=
  history.filter fun record => iterated.path record = path ∧ iterated.key record = key

def latest (history : List ρ) (path : List (κ × Nat)) (key : κ) : Option ρ :=
  (iterated.own history path key).getLast?

/-- The ordinal that follows the latest record; none follows a final one. -/
def next (history : List ρ) (path : List (κ × Nat)) (key : κ) : Option Nat :=
  match iterated.latest history path key with
  | none => some 0
  | some record => if iterated.final record then none else some (iterated.ordinal record + 1)

/-- Every iteration of the path is the next one of the path before it. -/
def Open (history : List ρ) (path : List (κ × Nat)) : Prop :=
  ∀ front key ordinal, front ++ [(key, ordinal)] <+: path →
    iterated.next history front key = some ordinal

/-- Every record is the next one of its path and key, on an open path. -/
def Orderly : List ρ → Prop :=
  Throughout fun before record => iterated.Open before (iterated.path record) ∧
    iterated.next before (iterated.path record) (iterated.key record) =
      some (iterated.ordinal record)

variable {iterated} {history : List ρ} {record : ρ} {path : List (κ × Nat)} {key : κ}

theorem mem_own {other : ρ} :
    other ∈ iterated.own history path key ↔
      other ∈ history ∧ iterated.path other = path ∧ iterated.key other = key := by
  simp [own]

theorem own_snoc_same (samePath : iterated.path record = path)
    (sameKey : iterated.key record = key) :
    iterated.own (history ++ [record]) path key = iterated.own history path key ++ [record] := by
  simp [own, List.filter_append, samePath, sameKey]

theorem own_snoc_other (other : ¬(iterated.path record = path ∧ iterated.key record = key)) :
    iterated.own (history ++ [record]) path key = iterated.own history path key := by
  simp [own, List.filter_append, other]

theorem latest_snoc_same (samePath : iterated.path record = path)
    (sameKey : iterated.key record = key) :
    iterated.latest (history ++ [record]) path key = some record := by
  rw [latest, own_snoc_same samePath sameKey, List.getLast?_concat]

theorem latest_snoc_other (other : ¬(iterated.path record = path ∧ iterated.key record = key)) :
    iterated.latest (history ++ [record]) path key = iterated.latest history path key := by
  rw [latest, own_snoc_other other, latest]

theorem latest_none (absent : ∀ other ∈ history, iterated.path other ≠ path) :
    iterated.latest history path key = none := by
  rw [latest, List.getLast?_eq_none_iff, own, List.filter_eq_nil_iff]
  intro other member
  simp [absent other member]

section Paths

theorem open_nil : iterated.Open history [] := by
  intro front key ordinal leads
  simp at leads

/-- The next iteration opens the path below it. -/
theorem Open.child {ordinal : Nat} (opened : iterated.Open history path)
    (following : iterated.next history path key = some ordinal) :
    iterated.Open history (path ++ [(key, ordinal)]) := by
  intro front other value leads
  rcases List.prefix_concat_iff.mp leads with whole | shorter
  · obtain ⟨rfl, same⟩ := List.append_inj' whole rfl
    obtain ⟨rfl, rfl⟩ := Prod.mk.inj (List.singleton_inj.mp same)
    exact following
  · exact opened front other value shorter

theorem Open.parent {entry : κ × Nat} (opened : iterated.Open history (path ++ [entry])) :
    iterated.Open history path :=
  fun front key ordinal leads =>
    opened front key ordinal (leads.trans (List.prefix_append _ _))

/-- Only one path of given keys is open. -/
theorem Open.unique {other : List (κ × Nat)} (opened : iterated.Open history path)
    (opened' : iterated.Open history other) (same : path.map (·.1) = other.map (·.1)) :
    path = other := by
  induction path using List.reverseRecOn generalizing other with
  | nil => simpa using same
  | append_singleton front entry ih =>
    obtain ⟨key, ordinal⟩ := entry
    rcases List.eq_nil_or_concat other with empty | ⟨front', entry', whole⟩
    · subst empty
      simp at same
    · subst whole
      obtain ⟨key', ordinal'⟩ := entry'
      rw [List.concat_eq_append] at opened' same ⊢
      rw [List.map_append, List.map_append] at same
      obtain ⟨sameFront, sameLast⟩ := List.append_inj' same rfl
      obtain rfl := ih opened.parent opened'.parent sameFront
      obtain rfl : key = key' := by simpa using sameLast
      have one := opened front key ordinal (List.prefix_refl _)
      have two := opened' front key ordinal' (List.prefix_refl _)
      rw [one] at two
      rw [Option.some.inj two]

end Paths

section Order

theorem Orderly.snoc (orderly : iterated.Orderly history)
    (opened : iterated.Open history (iterated.path record))
    (following : iterated.next history (iterated.path record) (iterated.key record) =
      some (iterated.ordinal record)) : iterated.Orderly (history ++ [record]) :=
  Throughout.snoc orderly ⟨opened, following⟩

/-- Where the records count up from zero, what follows is their number. -/
theorem next_counted {ordinal : Nat}
    (counted : (iterated.own history path key).map iterated.ordinal =
      List.range (iterated.own history path key).length)
    (following : iterated.next history path key = some ordinal) :
    (iterated.own history path key).length = ordinal := by
  rw [next, latest] at following
  rcases List.eq_nil_or_concat (iterated.own history path key) with empty | ⟨front, last, whole⟩
  · rw [empty] at following ⊢
    simpa using following
  · rw [List.concat_eq_append] at whole
    rw [whole, List.getLast?_concat] at following
    rw [whole, List.map_append, List.length_append, List.length_singleton,
      List.range_succ] at counted
    have place : iterated.ordinal last = front.length := by
      simpa using (List.append_inj' counted rfl).2
    dsimp only at following
    split at following
    · cases following
    · rw [whole, List.length_append, List.length_singleton, ← Option.some.inj following, place]

/-- The records of a path and key count up from zero. -/
theorem Orderly.ordinals (orderly : iterated.Orderly history) (path : List (κ × Nat)) (key : κ) :
    (iterated.own history path key).map iterated.ordinal =
      List.range (iterated.own history path key).length := by
  apply @Throughout.carries _ _ (fun held => (iterated.own held path key).map iterated.ordinal =
    List.range (iterated.own held path key).length) _ orderly rfl
  intro before record counted step
  by_cases same : iterated.path record = path ∧ iterated.key record = key
  · obtain ⟨samePath, sameKey⟩ := same
    have following := step.2
    rw [samePath, sameKey] at following
    have place := next_counted counted following
    rw [own_snoc_same samePath sameKey, List.map_append, List.length_append, counted,
      List.map_singleton, List.length_singleton, List.range_succ, place]
  · rw [own_snoc_other same]
    exact counted

/-- No record of a path and key follows a final one. -/
theorem Orderly.final_last (orderly : iterated.Orderly history) {front : List ρ} {last : ρ}
    (whole : iterated.own history path key = front ++ [last]) :
    ∀ earlier ∈ front, iterated.final earlier = false := by
  suffices held : ∀ front last, iterated.own history path key = front ++ [last] →
      ∀ earlier ∈ front, iterated.final earlier = false from held front last whole
  clear whole
  apply @Throughout.carries _ _ (fun held => ∀ front last,
    iterated.own held path key = front ++ [last] →
      ∀ earlier ∈ front, iterated.final earlier = false) _ orderly (by simp [own])
  intro before record settled step front last whole earlier member
  by_cases same : iterated.path record = path ∧ iterated.key record = key
  · obtain ⟨samePath, sameKey⟩ := same
    rw [own_snoc_same samePath sameKey] at whole
    obtain ⟨rfl, _⟩ := List.append_inj' whole rfl
    have following := step.2
    rw [samePath, sameKey, next, latest] at following
    rcases List.eq_nil_or_concat (iterated.own before path key) with empty | ⟨front, previous, split⟩
    · rw [empty] at member
      cases member
    · rw [List.concat_eq_append] at split
      rw [split, List.getLast?_concat] at following
      rw [split] at member
      rcases List.mem_append.mp member with inside | here
      · exact settled front previous split earlier inside
      · obtain rfl := List.mem_singleton.mp here
        dsimp only at following
        split at following
        · cases following
        · rename_i unfinished
          simpa using unfinished
  · rw [own_snoc_other same] at whole
    exact settled front last whole earlier member

/-- What follows is the number of records so far. -/
theorem Orderly.next_length (orderly : iterated.Orderly history) {ordinal : Nat}
    (following : iterated.next history path key = some ordinal) :
    (iterated.own history path key).length = ordinal :=
  next_counted (orderly.ordinals path key) following

theorem Orderly.of_append {later : List ρ} (orderly : iterated.Orderly (history ++ later)) :
    iterated.Orderly history := Throughout.of_append orderly

/-- The enclosing iterations of a record have not gone back behind it. -/
theorem Orderly.enclosed (orderly : iterated.Orderly history) :
    ∀ record ∈ history, ∀ front key ordinal,
      front ++ [(key, ordinal)] <+: iterated.path record →
      ordinal ≤ (iterated.own history front key).length := by
  intro record member front key ordinal leads
  obtain ⟨before, after, rfl⟩ := List.append_of_mem member
  have opened := (orderly before record after rfl).1
  rw [← orderly.of_append.next_length (opened front key ordinal leads)]
  rw [own, own, List.filter_append, List.length_append]
  exact Nat.le_add_right _ _

/-- A path that a record is on was open before if it is open now. -/
theorem Open.before (opened : iterated.Open (history ++ [record]) path)
    (orderly : iterated.Orderly (history ++ [record]))
    {other : ρ} (member : other ∈ history) (on : iterated.path other = path) :
    iterated.Open history path := by
  intro front key ordinal leads
  have now := opened front key ordinal leads
  by_cases same : iterated.path record = front ∧ iterated.key record = key
  · exfalso
    have count := orderly.next_length now
    rw [own_snoc_same same.1 same.2, List.length_append, List.length_singleton] at count
    have least := orderly.of_append.enclosed other member front key ordinal (on ▸ leads)
    omega
  · rw [next, latest_snoc_other same] at now
    exact now

/-- A record leaves its own path open. -/
theorem Open.snoc (opened : iterated.Open history (iterated.path record)) :
    iterated.Open (history ++ [record]) (iterated.path record) := by
  intro front key ordinal leads
  rw [next, latest_snoc_other]
  · exact opened front key ordinal leads
  · rintro ⟨same, _⟩
    have shorter := leads.length_le
    rw [same, List.length_append, List.length_singleton] at shorter
    omega

/-- What encloses a path that stays open does not move on. -/
theorem Open.still (before : iterated.Open history path)
    (after : iterated.Open (history ++ [record]) path)
    (orderly : iterated.Orderly (history ++ [record])) {front : List (κ × Nat)} {ordinal : Nat}
    (leads : front ++ [(key, ordinal)] <+: path) :
    iterated.latest (history ++ [record]) front key = iterated.latest history front key := by
  apply latest_snoc_other
  rintro ⟨samePath, sameKey⟩
  have one := orderly.of_append.next_length (before front key ordinal leads)
  have two := orderly.next_length (after front key ordinal leads)
  rw [own_snoc_same samePath sameKey, List.length_append, List.length_singleton] at two
  omega

end Order

end Iterated

end OxideBatch.Lib
