import OxideBatch.Lib.Tables

/-! What removals take from a table: totals, entries that satisfy a test, and the lists
that some owners leave behind. -/

namespace Tables

set_option linter.unusedSectionVars false

open Std (ExtTreeMap)

section Removed

variable {Key Value : Type} [Ord Key] [Std.TransOrd Key] [Std.LawfulEqOrd Key] [DecidableEq Key]
  {table : ExtTreeMap Key Value} {key : Key} {weight : Value → Nat}

theorem erase_absent (absent : table[key]? = none) : table.erase key = table := by
  apply ExtTreeMap.ext_getElem?
  intro other
  rw [lookup_erase]
  split
  · rename_i same
    rw [← same, absent]
  · rfl

/-- A removal takes the weight of the removed value. -/
theorem total_erase : total weight (table.erase key) + table[key]?.elim 0 weight =
    total weight table := by
  cases held : table[key]? with
  | none => rw [erase_absent held, Option.elim_none, Nat.add_zero]
  | some old =>
    have absent : (table.erase key)[key]? = none := by
      rw [lookup_erase, if_pos rfl]
    have restored : (table.erase key).insert key old = table := by
      apply ExtTreeMap.ext_getElem?
      intro other
      rw [lookup_insert, lookup_erase]
      split
      · rename_i same
        rw [← same, held]
      · rfl
    rw [Option.elim_some, ← total_insert_fresh absent, restored]

/-- Entries under other keys are counted as before. -/
theorem countP_eraseAll {keys : List Key} {test : Key × Value → Bool}
    (spared : ∀ key ∈ keys, ∀ value, table[key]? = some value → test (key, value) = false) :
    (eraseAll table keys).toList.countP test = table.toList.countP test := by
  rw [List.countP_eq_length_filter, List.countP_eq_length_filter]
  refine List.Perm.length_eq ((List.perm_ext_iff_of_nodup (nodup_toList.filter _)
    (nodup_toList.filter _)).mpr ?_)
  rintro ⟨key, value⟩
  rw [List.mem_filter, List.mem_filter, ExtTreeMap.mem_toList_iff_getElem?_eq_some,
    ExtTreeMap.mem_toList_iff_getElem?_eq_some, lookup_eraseAll]
  constructor
  · rintro ⟨found, holds⟩
    split at found
    · cases found
    · exact ⟨found, holds⟩
  · rintro ⟨found, holds⟩
    have other : key ∉ keys := by
      intro member
      rw [spared key member value found] at holds
      cases holds
    rw [if_neg other]
    exact ⟨found, holds⟩

/-- The entries that satisfy a test go with their keys. -/
theorem size_eraseAll_filter {test : Key × Value → Bool} :
    (eraseAll table ((table.toList.filter test).map (·.1))).size + table.toList.countP test =
      table.size := by
  have keyed : (table.toList.map (·.1)).Nodup := by
    rw [ExtTreeMap.map_fst_toList_eq_keys]
    exact ExtTreeMap.nodup_keys
  have members : ∀ key ∈ (table.toList.filter test).map (·.1), key ∈ table := by
    intro key member
    obtain ⟨entry, among, rfl⟩ := List.mem_map.mp member
    exact mem_of_lookup (ExtTreeMap.mem_toList_iff_getElem?_eq_some.mp (List.mem_filter.mp among).1)
  have sizes := size_eraseAll (keyed.sublist (List.filter_sublist.map Prod.fst)) members
  rw [List.length_map, ← List.countP_eq_length_filter] at sizes
  exact sizes

end Removed

end Tables
