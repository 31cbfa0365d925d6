import Mathlib

/-! Tables kept as lists in the strict order of their keys. -/

namespace OxideBatch.Lib

variable {Entry Key : Type} [LinearOrder Key]

/-- Entries in the strict order of their keys. -/
structure SortedTable (key : Entry → Key) where
  entries : List Entry
  ascending : entries.Pairwise fun left right => key left < key right

namespace SortedTable

variable {key : Entry → Key}

def empty : SortedTable key := ⟨[], .nil⟩

def lookup (table : SortedTable key) (wanted : Key) : Option Entry :=
  table.entries.find? fun entry => key entry = wanted

/-- Replaces the entry of the key, or inserts in front of the first larger one. -/
def placed (key : Entry → Key) (entry : Entry) : List Entry → List Entry
  | [] => [entry]
  | first :: rest =>
    if key entry = key first then entry :: rest
    else if key entry < key first then entry :: first :: rest
    else first :: placed key entry rest

theorem mem_placed {entry other : Entry} {entries : List Entry}
    (member : other ∈ placed key entry entries) : other = entry ∨ other ∈ entries := by
  induction entries with
  | nil => exact .inl (List.mem_singleton.mp member)
  | cons first rest ih =>
    unfold placed at member
    split at member
    · rcases List.mem_cons.mp member with here | later
      · exact .inl here
      · exact .inr (List.mem_cons_of_mem _ later)
    · split at member
      · exact List.mem_cons.mp member
      · rcases List.mem_cons.mp member with here | later
        · exact .inr (here ▸ List.mem_cons_self)
        · rcases ih later with same | before
          · exact .inl same
          · exact .inr (List.mem_cons_of_mem _ before)

theorem placed_ascending {entry : Entry} {entries : List Entry}
    (ascending : entries.Pairwise fun left right => key left < key right) :
    (placed key entry entries).Pairwise fun left right => key left < key right := by
  induction entries with
  | nil => exact List.pairwise_singleton _ _
  | cons first rest ih =>
    obtain ⟨below, ascending⟩ := List.pairwise_cons.mp ascending
    unfold placed
    split
    · rename_i same
      refine List.pairwise_cons.mpr ⟨fun other member => ?_, ascending⟩
      rw [same]
      exact below other member
    · rename_i different
      split
      · rename_i less
        refine List.pairwise_cons.mpr
          ⟨fun other member => ?_, List.pairwise_cons.mpr ⟨below, ascending⟩⟩
        rcases List.mem_cons.mp member with here | later
        · exact here ▸ less
        · exact lt_trans less (below other later)
      · rename_i notLess
        refine List.pairwise_cons.mpr ⟨fun other member => ?_, ih ascending⟩
        rcases mem_placed member with here | before
        · exact here ▸ lt_of_le_of_ne (not_lt.mp notLess) (Ne.symm different)
        · exact below other before

/-- Placing an entry that is there changes nothing. -/
theorem placed_mem {entry : Entry} {entries : List Entry}
    (ascending : entries.Pairwise fun left right => key left < key right)
    (member : entry ∈ entries) : placed key entry entries = entries := by
  induction entries with
  | nil => cases member
  | cons first rest ih =>
    obtain ⟨below, ascending⟩ := List.pairwise_cons.mp ascending
    rcases List.mem_cons.mp member with rfl | later
    · simp [placed]
    · have above := below entry later
      rw [placed, if_neg (ne_of_gt above), if_neg (not_lt_of_gt above), ih ascending later]

/-- Placing an entry and then viewing it is placing its view. -/
theorem placed_map {View : Type} (view : Entry → View) (viewKey : View → Key)
    (keyed : ∀ entry, viewKey (view entry) = key entry) (entry : Entry) (entries : List Entry) :
    (placed key entry entries).map view = placed viewKey (view entry) (entries.map view) := by
  induction entries with
  | nil => rfl
  | cons first rest ih =>
    simp only [placed, List.map_cons, keyed]
    split
    · rfl
    · split
      · rfl
      · rw [List.map_cons, ih]

def put (table : SortedTable key) (entry : Entry) : SortedTable key :=
  ⟨placed key entry table.entries, placed_ascending table.ascending⟩

/-- Keeps the entries that pass. -/
def retain (table : SortedTable key) (keep : Entry → Bool) : SortedTable key :=
  ⟨table.entries.filter keep, table.ascending.filter keep⟩

variable (table : SortedTable key)

theorem key_of_lookup {wanted : Key} {entry : Entry} (found : table.lookup wanted = some entry) :
    key entry = wanted := by
  simpa using List.find?_some found

theorem lookup_none {wanted : Key} :
    table.lookup wanted = none ↔ ∀ entry ∈ table.entries, key entry ≠ wanted := by
  simp [lookup]

theorem lookup_map {View : Type} {view : Entry → View} {viewKey : View → Key}
    (keyed : ∀ entry, viewKey (view entry) = key entry) (wanted : Key) :
    (table.lookup wanted).map view =
      (table.entries.map view).find? fun viewed => viewKey viewed = wanted := by
  rw [lookup, List.find?_map]
  congr 2
  funext entry
  simp [keyed]

/-- Tables whose entries look alike look alike under every key. -/
theorem lookup_alike {Other View : Type} {otherKey : Other → Key} {other : SortedTable otherKey}
    {view : Entry → View} {otherView : Other → View} (viewKey : View → Key)
    (keyed : ∀ entry, viewKey (view entry) = key entry)
    (otherKeyed : ∀ entry, viewKey (otherView entry) = otherKey entry)
    (alike : table.entries.map view = other.entries.map otherView) (wanted : Key) :
    (table.lookup wanted).map view = (other.lookup wanted).map otherView := by
  rw [table.lookup_map keyed, other.lookup_map otherKeyed, alike]

theorem lookup_put (entry : Entry) (wanted : Key) :
    (table.put entry).lookup wanted =
      if key entry = wanted then some entry else table.lookup wanted := by
  obtain ⟨entries, ascending⟩ := table
  change (placed key entry entries).find? _ = if _ then _ else entries.find? _
  clear ascending
  induction entries with
  | nil =>
    by_cases here : key entry = wanted
    · simp [placed, here]
    · simp [placed, here]
  | cons first rest ih =>
    unfold placed
    split
    · rename_i same
      rw [List.find?_cons, List.find?_cons, ← same]
      by_cases here : key entry = wanted
      · simp [here]
      · simp [here]
    · rename_i different
      split
      · rw [List.find?_cons]
        by_cases here : key entry = wanted
        · simp [here]
        · simp [here]
      · rw [List.find?_cons, List.find?_cons, ih]
        by_cases here : key first = wanted
        · have other : key entry ≠ wanted := fun same => different (same.trans here.symm)
          simp [here, other]
        · simp [here]

theorem lookup_some {wanted : Key} {entry : Entry} :
    table.lookup wanted = some entry ↔ entry ∈ table.entries ∧ key entry = wanted := by
  constructor
  · intro found
    exact ⟨List.mem_of_find?_eq_some found, table.key_of_lookup found⟩
  · rintro ⟨member, rfl⟩
    have same : table.put entry = table := by
      obtain ⟨entries, ascending⟩ := table
      rw [put]
      congr 1
      exact placed_mem ascending member
    rw [← same, lookup_put, if_pos rfl]

/-- The entry put takes the place of the one under its key. -/
theorem mem_put {entry other : Entry} :
    other ∈ (table.put entry).entries ↔
      other = entry ∨ (other ∈ table.entries ∧ key other ≠ key entry) := by
  have found : (table.put entry).lookup (key other) = some other ↔
      other ∈ (table.put entry).entries := by
    rw [lookup_some]
    exact and_iff_left rfl
  rw [← found, lookup_put]
  by_cases same : key entry = key other
  · rw [if_pos same, Option.some_inj]
    constructor
    · exact fun equal => .inl equal.symm
    · rintro (equal | ⟨_, apart⟩)
      · exact equal.symm
      · exact absurd same.symm apart
  · rw [if_neg same, lookup_some]
    constructor
    · exact fun held => .inr ⟨held.1, Ne.symm same⟩
    · rintro (equal | ⟨member, _⟩)
      · exact absurd (congrArg key equal).symm same
      · exact ⟨member, rfl⟩

/-- A table grows by the entry of a key that is not there yet. -/
theorem length_put (entry : Entry) :
    (table.put entry).entries.length =
      table.entries.length + if (table.lookup (key entry)).isNone then 1 else 0 := by
  obtain ⟨entries, ascending⟩ := table
  change (placed key entry entries).length =
    entries.length + if (entries.find? fun other => key other = key entry).isNone then 1 else 0
  induction entries with
  | nil => rfl
  | cons first rest ih =>
    obtain ⟨below, ascending⟩ := List.pairwise_cons.mp ascending
    unfold placed
    split
    · rename_i same
      simp [same]
    · rename_i different
      have away : key first ≠ key entry := Ne.symm different
      split
      · rename_i less
        have absent : rest.find? (fun other => key other = key entry) = none := by
          rw [List.find?_eq_none]
          intro other member
          simpa using ne_of_gt (lt_trans less (below other member))
        simp [away, absent]
      · rw [List.length_cons, ih ascending, List.length_cons, List.find?_cons]
        simp only [away, decide_false]
        omega

/-- An entry with the greatest key goes to the end. -/
theorem put_last {entry : Entry} (last : ∀ other ∈ table.entries, key other < key entry) :
    (table.put entry).entries = table.entries ++ [entry] := by
  obtain ⟨entries, ascending⟩ := table
  change ∀ other ∈ entries, key other < key entry at last
  change placed key entry entries = entries ++ [entry]
  clear ascending
  induction entries with
  | nil => rfl
  | cons first rest ih =>
    have below := last first List.mem_cons_self
    rw [placed, if_neg (ne_of_gt below), if_neg (not_lt_of_gt below),
      ih fun other member => last other (List.mem_cons_of_mem _ member), List.cons_append]

theorem lookup_retain (keep : Entry → Bool) (wanted : Key) :
    (table.retain keep).lookup wanted = (table.lookup wanted).filter keep := by
  obtain ⟨entries, ascending⟩ := table
  change (entries.filter keep).find? _ = (entries.find? _).filter keep
  induction entries with
  | nil => rfl
  | cons first rest ih =>
    obtain ⟨below, ascending⟩ := List.pairwise_cons.mp ascending
    by_cases here : key first = wanted
    · -- no later entry has the key of the first
      have absent : (rest.filter keep).find? (fun entry => key entry = wanted) = none := by
        rw [List.find?_eq_none]
        intro other member
        have less := below other (List.mem_filter.mp member).1
        rw [here] at less
        simpa using ne_of_gt less
      by_cases kept : keep first = true
      · simp [kept, here, Option.filter]
      · simp [kept, here, absent, Option.filter]
    · by_cases kept : keep first = true
      · simp [kept, here, ih ascending]
      · simp [kept, here, ih ascending]

end SortedTable

end OxideBatch.Lib
