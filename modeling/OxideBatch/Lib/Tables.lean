import Mathlib

/-! Ordered tables with several keys at once, and tables that list the rows of
another under their owners. -/

namespace Tables

set_option linter.unusedSectionVars false

open Std (ExtTreeMap)

section Operations

variable {Key Value : Type} [Ord Key] [Std.TransOrd Key]

/-- `Vec::push` under a key, which starts empty. -/
def pushUnder (table : ExtTreeMap Key (List Value)) (key : Key) (value : Value) :
    ExtTreeMap Key (List Value) :=
  table.insert key ((table[key]?.getD []) ++ [value])

/-- Inserts entries one after the other. -/
def insertAll (table : ExtTreeMap Key Value) (entries : List (Key × Value)) :
    ExtTreeMap Key Value :=
  entries.foldl (fun table entry => table.insert entry.1 entry.2) table

/-- Removes the entries under the keys, one by one. -/
def eraseAll (table : ExtTreeMap Key Value) (keys : List Key) : ExtTreeMap Key Value :=
  keys.foldl (fun table key => table.erase key) table

open Std.DTreeMap.Internal in
private theorem values_of_tree (tree : Impl Key (fun _ => Value)) (rest : List (Key × Value)) :
    tree.foldr (fun _ value values => value :: values) (rest.map Prod.snd) =
      (tree.foldr (fun key value entries => (key, value) :: entries) rest).map Prod.snd := by
  induction tree generalizing rest with
  | leaf => rfl
  | inner size key value left right first second =>
    have one := second rest
    have two := first
      ((key, value) :: right.foldr (fun key value entries => (key, value) :: entries) rest)
    rw [List.map_cons, ← one] at two
    exact two

/-- The values stand in the order of their keys. -/
theorem values_eq (table : ExtTreeMap Key Value) : table.values = table.toList.map Prod.snd := by
  rcases table with ⟨⟨table⟩⟩
  induction table using Quotient.ind with
  | _ table => exact values_of_tree table.inner []

end Operations

section Lookup

variable {Key Value : Type} [Ord Key] [Std.TransOrd Key] [Std.LawfulEqOrd Key] [DecidableEq Key]
  {table : ExtTreeMap Key Value} {key other : Key} {value value' : Value}

theorem lookup_insert :
    (table.insert key value)[other]? = if key = other then some value else table[other]? := by
  rw [ExtTreeMap.getElem?_insert]
  simp only [Std.LawfulEqOrd.compare_eq_iff_eq]

theorem lookup_erase : (table.erase key)[other]? = if key = other then none else table[other]? := by
  rw [ExtTreeMap.getElem?_erase]
  simp only [Std.LawfulEqOrd.compare_eq_iff_eq]

theorem mem_iff_lookup : key ∈ table ↔ ∃ value, table[key]? = some value := by
  rw [ExtTreeMap.mem_iff_isSome_getElem?, Option.isSome_iff_exists]

theorem not_mem_iff_lookup : key ∉ table ↔ table[key]? = none := by
  rw [mem_iff_lookup]
  cases table[key]? with
  | none => simp
  | some value => simp

theorem mem_of_lookup (stored : table[key]? = some value) : key ∈ table :=
  mem_iff_lookup.mpr ⟨value, stored⟩

theorem not_contains : (!table.contains key) = true ↔ key ∉ table := by
  rw [Bool.not_eq_true', ← Bool.not_eq_true, ExtTreeMap.contains_iff_mem]

/-- An entry after an insertion is the new one, or one of before under another key. -/
theorem lookup_insert_cases (found : (table.insert key value)[other]? = some value') :
    key = other ∧ value = value' ∨ key ≠ other ∧ table[other]? = some value' := by
  rw [lookup_insert] at found
  split at found
  · rename_i same
    exact .inl ⟨same, Option.some.inj found⟩
  · rename_i different
    exact .inr ⟨different, found⟩

theorem lookup_insertAll_cases {entries : List (Key × Value)}
    (found : (insertAll table entries)[key]? = some value) :
    (key, value) ∈ entries ∨ table[key]? = some value ∧ ∀ entry ∈ entries, entry.1 ≠ key := by
  induction entries generalizing table with
  | nil => exact .inr ⟨found, by simp⟩
  | cons entry entries ih =>
    rcases ih found with member | ⟨inserted, absent⟩
    · exact .inl (List.mem_cons_of_mem _ member)
    · rcases lookup_insert_cases inserted with ⟨same, rfl⟩ | ⟨different, before⟩
      · exact .inl (by simp [← same])
      · refine .inr ⟨before, ?_⟩
        intro other member
        rcases List.mem_cons.mp member with rfl | later
        · exact different
        · exact absent other later

theorem mem_insert_iff : other ∈ table.insert key value ↔ key = other ∨ other ∈ table := by
  rw [ExtTreeMap.mem_insert, Std.LawfulEqOrd.compare_eq_iff_eq]

theorem mem_insertAll {entries : List (Key × Value)} :
    key ∈ insertAll table entries ↔ (∃ value, (key, value) ∈ entries) ∨ key ∈ table := by
  induction entries generalizing table with
  | nil => simp [insertAll]
  | cons entry entries ih =>
    change key ∈ insertAll (table.insert entry.1 entry.2) entries ↔ _
    rw [ih, mem_insert_iff]
    constructor
    · rintro (⟨value, member⟩ | rfl | before)
      · exact .inl ⟨value, List.mem_cons_of_mem _ member⟩
      · exact .inl ⟨entry.2, List.mem_cons_self⟩
      · exact .inr before
    · rintro (⟨value, member⟩ | before)
      · rcases List.mem_cons.mp member with same | later
        · exact .inr (.inl (by rw [← same]))
        · exact .inl ⟨value, later⟩
      · exact .inr (.inr before)

theorem lookup_eraseAll {keys : List Key} :
    (eraseAll table keys)[other]? = if other ∈ keys then none else table[other]? := by
  induction keys generalizing table with
  | nil => simp [eraseAll]
  | cons key keys ih =>
    change (eraseAll (table.erase key) keys)[other]? = _
    rw [ih, lookup_erase]
    by_cases same : key = other
    · simp [same]
    · simp [same, Ne.symm same]

theorem lookup_pushUnder {table : ExtTreeMap Key (List Value)} {value : Value} :
    (pushUnder table key value)[other]? =
      if key = other then some ((table[key]?.getD []) ++ [value]) else table[other]? :=
  lookup_insert

theorem nodup_toList : table.toList.Nodup := by
  refine ExtTreeMap.distinct_keys_toList.imp ?_
  exact fun different same => Std.ReflCmp.ne_of_cmp_ne_eq different (congrArg Prod.fst same)

/-- A fresh key adds one entry. -/
theorem toList_insert_perm (fresh : table[key]? = none) :
    (table.insert key value).toList.Perm ((key, value) :: table.toList) := by
  have absent : (key, value) ∉ table.toList := by
    rw [ExtTreeMap.mem_toList_iff_getElem?_eq_some, fresh]
    simp
  apply (List.perm_ext_iff_of_nodup nodup_toList (List.nodup_cons.mpr ⟨absent, nodup_toList⟩)).mpr
  rintro ⟨other, held⟩
  rw [List.mem_cons, ExtTreeMap.mem_toList_iff_getElem?_eq_some,
    ExtTreeMap.mem_toList_iff_getElem?_eq_some, lookup_insert, Prod.mk.injEq]
  by_cases same : key = other
  · subst same
    simp [fresh, eq_comm]
  · simp [same, Ne.symm same]

theorem keys_insert_perm (fresh : table[key]? = none) :
    (table.insert key value).keys.Perm (key :: table.keys) := by
  rw [← ExtTreeMap.map_fst_toList_eq_keys, ← ExtTreeMap.map_fst_toList_eq_keys]
  exact (toList_insert_perm fresh).map Prod.fst

theorem insert_comm (different : key ≠ other) :
    (table.insert key value).insert other value' = (table.insert other value').insert key value := by
  apply ExtTreeMap.ext_getElem?
  intro any
  simp only [lookup_insert]
  by_cases here : key = any
  · have away : other ≠ any := fun same => different (here.trans same.symm)
    simp [here, away]
  · simp [here]

/-- Lists in strict key order that hold related values under the same keys. -/
theorem forall₂_of_ordered {Other : Type} {related : Value → Other → Prop}
    {entries : List (Key × Value)} {others : List (Key × Other)}
    (ordered : entries.Pairwise fun left right => compare left.1 right.1 = .lt)
    (ordered' : others.Pairwise fun left right => compare left.1 right.1 = .lt)
    (forth : ∀ entry ∈ entries, ∃ other ∈ others, entry.1 = other.1 ∧ related entry.2 other.2)
    (back : ∀ other ∈ others, ∃ entry ∈ entries, entry.1 = other.1) :
    List.Forall₂ (fun entry other => entry.1 = other.1 ∧ related entry.2 other.2) entries others := by
  induction entries generalizing others with
  | nil =>
    cases others with
    | nil => exact .nil
    | cons other others =>
      obtain ⟨_, member, _⟩ := back other List.mem_cons_self
      cases member
  | cons entry entries ih =>
    have irrefl : ∀ key : Key, compare key key ≠ .lt := by
      intro key less
      have equal : compare key key = .eq := Std.ReflCmp.compare_self
      rw [equal] at less
      cases less
    cases others with
    | nil =>
      obtain ⟨_, member, _⟩ := forth entry List.mem_cons_self
      cases member
    | cons other others =>
      obtain ⟨below, rest⟩ := List.pairwise_cons.mp ordered
      obtain ⟨below', rest'⟩ := List.pairwise_cons.mp ordered'
      obtain ⟨partner, inOthers, samePartner, holds⟩ := forth entry List.mem_cons_self
      obtain ⟨origin, inEntries, sameOrigin⟩ := back other List.mem_cons_self
      -- both heads have the least key, so they are partners
      have same : partner = other := by
        rcases List.mem_cons.mp inOthers with here | later
        · exact here
        · rcases List.mem_cons.mp inEntries with rfl | later'
          · have less := below' partner later
            rw [← samePartner, ← sameOrigin] at less
            exact absurd less (irrefl _)
          · have less := Std.TransCmp.lt_trans (below origin later') (sameOrigin ▸ below' partner later)
            rw [← samePartner] at less
            exact absurd less (irrefl _)
      subst same
      refine .cons ⟨samePartner, holds⟩ (ih rest rest' ?_ ?_)
      · intro entry' member
        obtain ⟨other', found, same', holds'⟩ := forth entry' (List.mem_cons_of_mem _ member)
        rcases List.mem_cons.mp found with rfl | later
        · have less := below entry' member
          rw [same', ← samePartner] at less
          exact absurd less (irrefl _)
        · exact ⟨other', later, same', holds'⟩
      · intro other' member
        obtain ⟨entry', found, same'⟩ := back other' (List.mem_cons_of_mem _ member)
        rcases List.mem_cons.mp found with rfl | later
        · have less := below' other' member
          rw [← same', ← samePartner] at less
          exact absurd less (irrefl _)
        · exact ⟨entry', later, same'⟩

/-- Tables with related values under every key list them pairwise. -/
theorem forall₂_toList {Other : Type} {related : Value → Other → Prop}
    {others : ExtTreeMap Key Other}
    (pointwise : ∀ key : Key, Option.Rel related table[key]? others[key]?) :
    List.Forall₂ (fun entry other => entry.1 = other.1 ∧ related entry.2 other.2)
      table.toList others.toList := by
  apply forall₂_of_ordered ExtTreeMap.ordered_keys_toList ExtTreeMap.ordered_keys_toList
  · intro entry member
    have found := ExtTreeMap.mem_toList_iff_getElem?_eq_some.mp member
    have pair := pointwise entry.1
    rw [found] at pair
    cases partner : others[entry.1]? with
    | none =>
      rw [partner] at pair
      cases pair
    | some other =>
      rw [partner] at pair
      cases pair with
      | some holds =>
        exact ⟨(entry.1, other), ExtTreeMap.mem_toList_iff_getElem?_eq_some.mpr partner, rfl, holds⟩
  · intro other member
    have found := ExtTreeMap.mem_toList_iff_getElem?_eq_some.mp member
    have pair := pointwise other.1
    rw [found] at pair
    cases partner : table[other.1]? with
    | none =>
      rw [partner] at pair
      cases pair
    | some entry => exact ⟨(other.1, entry), ExtTreeMap.mem_toList_iff_getElem?_eq_some.mpr partner, rfl⟩

theorem size_erase_mem (member : key ∈ table) : (table.erase key).size + 1 = table.size := by
  have positive : table.size ≠ 0 := by
    intro empty
    have none := ExtTreeMap.eq_empty_iff_size_eq_zero.mpr empty
    simp [none] at member
  rw [ExtTreeMap.size_erase, if_pos (by simpa using member)]
  omega

theorem size_eraseAll {keys : List Key} (nodup : keys.Nodup) (members : ∀ key ∈ keys, key ∈ table) :
    (eraseAll table keys).size + keys.length = table.size := by
  induction keys generalizing table with
  | nil => rfl
  | cons key keys ih =>
    obtain ⟨absent, rest⟩ := List.nodup_cons.mp nodup
    have here := size_erase_mem (members key List.mem_cons_self)
    have later := @ih (table.erase key) rest (by
      intro other member
      have different : key ≠ other := fun same => absent (same ▸ member)
      rw [mem_iff_lookup, lookup_erase, if_neg different, ← mem_iff_lookup]
      exact members other (List.mem_cons_of_mem _ member))
    change (eraseAll (table.erase key) keys).size + _ = _
    rw [List.length_cons]
    omega

end Lookup

section Totals

variable {Key Value : Type} [Ord Key] [Std.TransOrd Key] [Std.LawfulEqOrd Key] [DecidableEq Key]
  {table : ExtTreeMap Key Value} {key : Key} {value : Value} {weight : Value → Nat}

/-- The sum of a weight over all values. -/
def total (weight : Value → Nat) (table : ExtTreeMap Key Value) : Nat :=
  (table.toList.map fun entry => weight entry.2).sum

@[simp] theorem total_empty : total weight (∅ : ExtTreeMap Key Value) = 0 := by
  have none : (∅ : ExtTreeMap Key Value).toList = [] := by
    rw [← List.isEmpty_iff, ExtTreeMap.isEmpty_toList]
    rfl
  rw [total, none, List.map_nil, List.sum_nil]

theorem total_insert_fresh (fresh : table[key]? = none) :
    total weight (table.insert key value) = total weight table + weight value := by
  unfold total
  rw [((toList_insert_perm fresh).map _).sum_eq, List.map_cons, List.sum_cons, Nat.add_comm]

/-- An insertion changes the total by the new value less the value it replaces. -/
theorem total_insert :
    total weight (table.insert key value) + table[key]?.elim 0 weight =
      total weight table + weight value := by
  cases held : table[key]? with
  | none => exact total_insert_fresh held
  | some old =>
    have absent : (table.erase key)[key]? = none := by
      rw [lookup_erase, if_pos rfl]
    have before : (table.erase key).insert key old = table := by
      apply ExtTreeMap.ext_getElem?
      intro other
      rw [lookup_insert, lookup_erase]
      by_cases same : key = other
      · subst same
        rw [if_pos rfl, held]
      · rw [if_neg same, if_neg same]
    have after : (table.erase key).insert key value = table.insert key value := by
      apply ExtTreeMap.ext_getElem?
      intro other
      rw [lookup_insert, lookup_insert, lookup_erase]
      by_cases same : key = other
      · rw [if_pos same, if_pos same]
      · rw [if_neg same, if_neg same, if_neg same]
    have first : total weight table = total weight (table.erase key) + weight old := by
      rw [← total_insert_fresh absent, before]
    have second : total weight (table.insert key value) =
        total weight (table.erase key) + weight value := by
      rw [← total_insert_fresh absent, after]
    rw [Option.elim_some]
    omega

theorem total_congr {Other : Type} {others : ExtTreeMap Key Other} {weight' : Other → Nat}
    (pointwise : ∀ key : Key, Option.Rel (fun value other => weight value = weight' other)
      table[key]? others[key]?) : total weight table = total weight' others := by
  have pairs := forall₂_toList pointwise
  unfold total
  generalize table.toList = entries at pairs
  generalize others.toList = entries' at pairs
  induction pairs with
  | nil => rfl
  | cons here _ ih => rw [List.map_cons, List.map_cons, List.sum_cons, List.sum_cons, here.2, ih]

theorem total_one : total (fun _ => 1) table = table.size := by
  unfold total
  rw [← ExtTreeMap.length_toList]
  simp

theorem size_insert_fresh (fresh : table[key]? = none) :
    (table.insert key value).size = table.size + 1 := by
  rw [← total_one, ← total_one, total_insert_fresh fresh]

theorem total_add {weight' : Value → Nat} :
    total (fun value => weight value + weight' value) table =
      total weight table + total weight' table := by
  unfold total
  exact List.sum_map_add

end Totals

section Index

variable {Owner Id Row : Type} [Ord Owner] [Std.TransOrd Owner] [Std.LawfulEqOrd Owner]
  [DecidableEq Owner] [Ord Id] [Std.TransOrd Id] [Std.LawfulEqOrd Id] [DecidableEq Id]
  {owner : Row → Owner} {rows : ExtTreeMap Id Row} {lists : ExtTreeMap Owner (List Id)}

/-- Every row is listed once, under its owner, and nothing else is listed. -/
structure Listed (owner : Row → Owner) (rows : ExtTreeMap Id Row)
    (lists : ExtTreeMap Owner (List Id)) : Prop where
  nodup : ∀ (key : Owner) (listed : List Id), lists[key]? = some listed → listed.Nodup
  stored : ∀ (key : Owner) (listed : List Id), lists[key]? = some listed → ∀ id ∈ listed,
    ∃ row, rows[id]? = some row ∧ owner row = key
  complete : ∀ (id : Id) (row : Row), rows[id]? = some row →
    ∃ listed : List Id, lists[owner row]? = some listed ∧ id ∈ listed

theorem Listed.empty : Listed owner (∅ : ExtTreeMap Id Row) (∅ : ExtTreeMap Owner (List Id)) where
  nodup _ _ found := by simp at found
  stored _ _ found := by simp at found
  complete _ _ found := by simp at found

theorem Listed.push (listed : Listed owner rows lists) {id : Id} {row : Row} (unused : id ∉ rows) :
    Listed owner (rows.insert id row) (pushUnder lists (owner row) id) := by
  have unlisted : ∀ (key : Owner) (before : List Id), lists[key]? = some before → id ∉ before := by
    intro key before found member
    obtain ⟨other, stored, _⟩ := listed.stored key before found id member
    exact unused (mem_iff_lookup.mpr ⟨other, stored⟩)
  have absent : id ∉ lists[owner row]?.getD [] := by
    cases found : lists[owner row]? with
    | none => simp
    | some before => exact unlisted _ before found
  refine ⟨?_, ?_, ?_⟩
  · intro key after found
    rcases lookup_insert_cases found with ⟨rfl, rfl⟩ | ⟨_, before⟩
    · refine List.nodup_append.mpr ⟨?_, by simp, ?_⟩
      · cases held : lists[owner row]? with
        | none => simp
        | some before => exact listed.nodup _ before held
      · intro other member last lastMember
        rw [List.mem_singleton.mp lastMember]
        exact fun same => absent (same ▸ member)
    · exact listed.nodup key after before
  · intro key after found other member
    have kept : ∀ (key : Owner) (before : List Id), lists[key]? = some before → other ∈ before →
        ∃ row', (rows.insert id row)[other]? = some row' ∧ owner row' = key := by
      intro key before held member
      obtain ⟨row', stored, same⟩ := listed.stored key before held other member
      have different : id ≠ other := fun same => unlisted key before held (same ▸ member)
      exact ⟨row', by rw [lookup_insert, if_neg different]; exact stored, same⟩
    rcases lookup_insert_cases found with ⟨rfl, rfl⟩ | ⟨_, before⟩
    · rcases List.mem_append.mp member with earlier | last
      · cases held : lists[owner row]? with
        | none => simp [held] at earlier
        | some before => exact kept _ before held (by simpa [held] using earlier)
      · rw [List.mem_singleton.mp last]
        exact ⟨row, by rw [lookup_insert, if_pos rfl], rfl⟩
    · exact kept key after before member
  · intro other row' found
    rcases lookup_insert_cases found with ⟨rfl, rfl⟩ | ⟨_, before⟩
    · exact ⟨_, by rw [lookup_pushUnder, if_pos rfl], by simp⟩
    · obtain ⟨earlier, lists', member⟩ := listed.complete other row' before
      by_cases same : owner row = owner row'
      · refine ⟨_, by rw [lookup_pushUnder, if_pos same], ?_⟩
        rw [same, lists']
        simp [member]
      · exact ⟨earlier, by rw [lookup_pushUnder, if_neg same]; exact lists', member⟩

/-- A row that keeps its owner keeps its place. -/
theorem Listed.update (listed : Listed owner rows lists) {id : Id} {before after : Row}
    (stored : rows[id]? = some before) (same : owner after = owner before) :
    Listed owner (rows.insert id after) lists := by
  refine ⟨listed.nodup, ?_, ?_⟩
  · intro key held found other member
    obtain ⟨row, lookup, owned⟩ := listed.stored key held found other member
    by_cases isId : id = other
    · subst isId
      rw [stored] at lookup
      cases lookup
      exact ⟨after, by rw [lookup_insert, if_pos rfl], same.trans owned⟩
    · exact ⟨row, by rw [lookup_insert, if_neg isId]; exact lookup, owned⟩
  · intro other row found
    rcases lookup_insert_cases found with ⟨rfl, rfl⟩ | ⟨_, earlier⟩
    · rw [same]
      exact listed.complete id before stored
    · exact listed.complete other row earlier

/-- New rows of one owner that has no list yet. -/
theorem Listed.insertList (listed : Listed owner rows lists) {key : Owner}
    {entries : List (Id × Row)} (unlisted : key ∉ lists) (distinct : (entries.map (·.1)).Nodup)
    (unused : ∀ entry ∈ entries, entry.1 ∉ rows) (owned : ∀ entry ∈ entries, owner entry.2 = key) :
    Listed owner (insertAll rows entries) (lists.insert key (entries.map (·.1))) := by
  have kept : ∀ (id : Id) (row : Row), rows[id]? = some row → (insertAll rows entries)[id]? = some row := by
    intro id row stored
    obtain ⟨row', found⟩ := mem_iff_lookup.mp
      (mem_insertAll.mpr (.inr (mem_iff_lookup.mpr ⟨row, stored⟩)) : id ∈ insertAll rows entries)
    rcases lookup_insertAll_cases found with member | ⟨before, _⟩
    · exact False.elim (unused _ member (mem_iff_lookup.mpr ⟨row, stored⟩))
    · rw [stored] at before
      rw [found, ← before]
  have inserted : ∀ entry ∈ entries, (insertAll rows entries)[entry.1]? = some entry.2 := by
    intro entry member
    obtain ⟨row, found⟩ := mem_iff_lookup.mp
      (mem_insertAll.mpr (.inl ⟨entry.2, member⟩) : entry.1 ∈ insertAll rows entries)
    rcases lookup_insertAll_cases found with same | ⟨_, absent⟩
    · have equal := List.inj_on_of_nodup_map distinct same member rfl
      rw [found, ← equal]
    · exact False.elim (absent entry member rfl)
  refine ⟨?_, ?_, ?_⟩
  · intro other held found
    rcases lookup_insert_cases found with ⟨_, rfl⟩ | ⟨_, before⟩
    · exact distinct
    · exact listed.nodup other held before
  · intro other held found id member
    rcases lookup_insert_cases found with ⟨rfl, rfl⟩ | ⟨_, before⟩
    · obtain ⟨entry, present, rfl⟩ := List.mem_map.mp member
      exact ⟨entry.2, inserted entry present, owned entry present⟩
    · obtain ⟨row, stored, same⟩ := listed.stored other held before id member
      exact ⟨row, kept id row stored, same⟩
  · intro id row found
    rcases lookup_insertAll_cases found with member | ⟨before, _⟩
    · refine ⟨entries.map (·.1), ?_, List.mem_map.mpr ⟨_, member, rfl⟩⟩
      rw [lookup_insert, if_pos (owned _ member).symm]
    · obtain ⟨held, lookup, member⟩ := listed.complete id row before
      have different : key ≠ owner row := by
        rintro rfl
        exact unlisted (mem_iff_lookup.mpr ⟨held, lookup⟩)
      exact ⟨held, by rw [lookup_insert, if_neg different]; exact lookup, member⟩

/-- An owner goes with all its rows. -/
theorem Listed.eraseOwner (listed : Listed owner rows lists) (key : Owner) :
    Listed owner (eraseAll rows (lists[key]?.getD [])) (lists.erase key) := by
  -- a row that is removed is of the owner, and a row that stays is of another
  have removed : ∀ (id : Id) (row : Row), rows[id]? = some row → (id ∈ lists[key]?.getD [] ↔ owner row = key) := by
    intro id row stored
    constructor
    · intro member
      cases held : lists[key]? with
      | none => simp [held] at member
      | some before =>
        obtain ⟨row', stored', same⟩ := listed.stored key before held id (by simpa [held] using member)
        rw [stored] at stored'
        cases stored'
        exact same
    · rintro rfl
      obtain ⟨before, held, member⟩ := listed.complete id row stored
      simpa [held] using member
  refine ⟨?_, ?_, ?_⟩
  · intro other held found
    rw [lookup_erase] at found
    split at found
    · cases found
    · exact listed.nodup other held found
  · intro other held found id member
    rw [lookup_erase] at found
    split at found
    · cases found
    · rename_i different
      obtain ⟨row, stored, same⟩ := listed.stored other held found id member
      refine ⟨row, ?_, same⟩
      rw [lookup_eraseAll, if_neg]
      · exact stored
      · rw [removed id row stored, same]
        exact Ne.symm different
  · intro id row found
    rw [lookup_eraseAll] at found
    split at found
    · cases found
    · rename_i kept
      obtain ⟨held, lookup, member⟩ := listed.complete id row found
      have different : key ≠ owner row := fun same => kept ((removed id row found).mpr same.symm)
      exact ⟨held, by rw [lookup_erase, if_neg different]; exact lookup, member⟩

/-- The rows an owner takes along are as many as it lists. -/
theorem Listed.size_eraseOwner (listed : Listed owner rows lists) (key : Owner) :
    (eraseAll rows (lists[key]?.getD [])).size + (lists[key]?.getD []).length = rows.size := by
  cases held : lists[key]? with
  | none => rfl
  | some before =>
    refine size_eraseAll (listed.nodup key before held) ?_
    intro id member
    obtain ⟨row, stored, _⟩ := listed.stored key before held id member
    exact mem_iff_lookup.mpr ⟨row, stored⟩

end Index

end Tables
