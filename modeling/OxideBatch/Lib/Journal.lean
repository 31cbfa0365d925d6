import OxideBatch.Lib.Sessions
import OxideBatch.Lib.Tables

/-! A journal of records under keys, which callers write in the units of their effects.
A key is written once, whatever the callers race for. -/

namespace OxideBatch.Lib

variable {σ ρ Key Record Other : Type}

/-- One record is added, under a key that had none. -/
structure Appends (recorded : σ → Key → Option Record) (key : Key) (written : Record → Prop)
    (before after : σ) : Prop where
  free : recorded before key = none
  added : ∃ record, recorded after key = some record ∧ written record
  rest : ∀ other, other ≠ key → recorded after other = recorded before other

/-- Every record was written by a caller of its key. -/
def Attributed (recorded : σ → Key → Option Record) (key : Nat → Key)
    (written : Nat → Record → Prop) (store : σ) : Prop :=
  ∀ wanted record, recorded store wanted = some record →
    ∃ caller, key caller = wanted ∧ written caller record

/-- Callers whose every commit appends under their own key, in a store that nobody else
records in. -/
structure Journal (versioned : Versioned σ) (act : Other → σ → σ)
    (recorded : σ → Key → Option Record) (key : Nat → Key) (written : Nat → Record → Prop)
    (contracts : Nat → Contract σ ρ) : Prop where
  appends : ∀ caller before after, (contracts caller).commits before after →
    Appends recorded (key caller) (written caller) before after
  elsewhere : ∀ other store wanted,
    recorded (versioned.advance (act other store) store) wanted = recorded store wanted

section

variable {recorded : σ → Key → Option Record} {before after store : σ}

theorem Appends.keeps {key wanted : Key} {written : Record → Prop} {record : Record}
    (appends : Appends recorded key written before after)
    (stored : recorded before wanted = some record) : recorded after wanted = some record := by
  by_cases same : wanted = key
  · subst same
    rw [appends.free] at stored
    cases stored
  · rw [appends.rest wanted same]
    exact stored

theorem Appends.attributed {key : Nat → Key} {written : Nat → Record → Prop} {caller : Nat}
    (appends : Appends recorded (key caller) (written caller) before after)
    (attributed : Attributed recorded key written before) :
    Attributed recorded key written after := by
  intro wanted record stored
  by_cases same : wanted = key caller
  · subst same
    obtain ⟨added, found, writes⟩ := appends.added
    rw [found] at stored
    cases stored
    exact ⟨caller, rfl, writes⟩
  · rw [appends.rest wanted same] at stored
    exact attributed wanted record stored

end

namespace Journal

variable {versioned : Versioned σ} {act : Other → σ → σ} {recorded : σ → Key → Option Record}
variable {key : Nat → Key} {written : Nat → Record → Prop} {contracts : Nat → Contract σ ρ}
variable {site : Site σ ρ}

/-- What is recorded at an turn is still recorded behind it. -/
theorem recorded_step (journal : Journal versioned act recorded key written contracts)
    (fulfils : site.Fulfils versioned contracts) {wanted : Key} {record : Record}
    (stored : recorded site.store wanted = some record) (turn : Turn Other) :
    recorded (site.step versioned act turn).store wanted = some record := by
  cases turn with
  | begin caller =>
    simp only [Site.step]
    split
    · exact stored
    · exact stored
  | finish caller =>
    cases commits : site.committed versioned caller with
    | none => simpa [Site.step, commits] using stored
    | some after =>
      simpa [Site.step, commits] using
        (journal.appends caller _ _ (fulfils.committed commits)).keeps stored
  | elsewhere other =>
    simp only [Site.step]
    split
    · rw [journal.elsewhere]
      exact stored
    · exact stored

theorem recorded_run (journal : Journal versioned act recorded key written contracts)
    (respects : Respects versioned act contracts) (fulfils : site.Fulfils versioned contracts)
    {wanted : Key} {record : Record} (stored : recorded site.store wanted = some record)
    (turns : List (Turn Other)) :
    recorded (site.run versioned act turns).store wanted = some record := by
  induction turns generalizing site with
  | nil => exact stored
  | cons turn turns ih =>
    exact ih (fulfils.step respects turn) (journal.recorded_step fulfils stored turn)

/-- A run commits only under keys that were free when it began. -/
theorem trace_free (journal : Journal versioned act recorded key written contracts)
    (respects : Respects versioned act contracts) (fulfils : site.Fulfils versioned contracts)
    (turns : List (Turn Other)) :
    ∀ commit ∈ site.trace versioned act turns, recorded site.store (key commit.caller) = none := by
  induction turns generalizing site with
  | nil =>
    intro commit member
    cases member
  | cons turn turns ih =>
    intro commit member
    rcases List.mem_append.mp member with here | later
    · cases turn with
      | finish caller =>
        simp only [Site.commitOf, Option.mem_toList, Option.map_eq_some_iff] at here
        obtain ⟨after, commits, rfl⟩ := here
        exact (journal.appends caller _ _ (fulfils.committed commits)).free
      | begin _ => cases here
      | elsewhere _ => cases here
    · have free := ih (fulfils.step respects turn) commit later
      rw [Option.eq_none_iff_forall_ne_some] at free ⊢
      intro record stored
      exact free record (journal.recorded_step fulfils stored turn)

/-- No key is committed twice. -/
theorem trace_nodup (journal : Journal versioned act recorded key written contracts)
    (respects : Respects versioned act contracts) (fulfils : site.Fulfils versioned contracts)
    (turns : List (Turn Other)) :
    ((site.trace versioned act turns).map fun commit => key commit.caller).Nodup := by
  induction turns generalizing site with
  | nil => exact .nil
  | cons turn turns ih =>
    have rest := ih (fulfils.step respects turn)
    rw [Site.trace, List.map_append]
    cases turn with
    | begin _ => exact rest
    | elsewhere _ => exact rest
    | finish caller =>
      cases commits : site.committed versioned caller with
      | none => simpa [Site.commitOf, commits] using rest
      | some after =>
        simp only [Site.commitOf, commits, Option.map_some, Option.toList_some, List.map_cons,
          List.map_nil, List.singleton_append, List.nodup_cons]
        refine ⟨?_, rest⟩
        intro again
        obtain ⟨commit, member, same⟩ := List.mem_map.mp again
        have free := journal.trace_free respects (fulfils.step respects (.finish caller)) turns
          commit member
        obtain ⟨record, stored, -⟩ :=
          (journal.appends caller _ _ (fulfils.committed commits)).added
        simp [same, Site.step, commits, stored] at free

/-- A caller whose key is recorded commits nothing more. -/
theorem trace_silent (journal : Journal versioned act recorded key written contracts)
    (respects : Respects versioned act contracts) (fulfils : site.Fulfils versioned contracts)
    {caller : Nat} {record : Record} (stored : recorded site.store (key caller) = some record)
    (turns : List (Turn Other)) :
    ∀ commit ∈ site.trace versioned act turns, commit.caller ≠ caller := by
  intro commit member same
  have free := journal.trace_free respects fulfils turns commit member
  rw [same, stored] at free
  cases free

end Journal

section Index

open Std (ExtTreeMap)
open Tables

set_option linter.unusedSectionVars false

variable {Id Row : Type} [Ord Id] [Std.TransOrd Id] [Std.LawfulEqOrd Id] [DecidableEq Id]
variable [Ord Key] [Std.TransOrd Key] [Std.LawfulEqOrd Key] [DecidableEq Key]
variable {rows : ExtTreeMap Id Row} {index : ExtTreeMap Key Id} {key other : Key} {id : Id}

/-- The row a key leads to. -/
def indexed (rows : ExtTreeMap Id Row) (index : ExtTreeMap Key Id) (key : Key) : Option Row := do
  let id ← index[key]?
  rows[id]?

/-- Every key leads to a row. -/
def Grounded (rows : ExtTreeMap Id Row) (index : ExtTreeMap Key Id) : Prop :=
  ∀ (key : Key) (id : Id), index[key]? = some id → id ∈ rows

theorem indexed_free (free : key ∉ index) : indexed rows index key = none := by
  rw [not_mem_iff_lookup] at free
  simp [indexed, free]

variable {row : Row}

theorem indexed_append : indexed (rows.insert id row) (index.insert key id) key = some row := by
  simp [indexed]

theorem indexed_append_other (grounded : Grounded rows index) (unused : id ∉ rows)
    (different : other ≠ key) :
    indexed (rows.insert id row) (index.insert key id) other = indexed rows index other := by
  unfold indexed
  rw [lookup_insert, if_neg (Ne.symm different)]
  cases held : index[other]? with
  | none => rfl
  | some found =>
    have elsewhere : id ≠ found := by
      intro same
      exact unused (same ▸ grounded other found held)
    simp [lookup_insert, elsewhere]

theorem Grounded.append (grounded : Grounded rows index) :
    Grounded (rows.insert id row) (index.insert key id) := by
  intro wanted found held
  rw [lookup_insert] at held
  split at held
  · cases held
    simp
  · rw [mem_insert_iff]
    exact .inr (grounded wanted found held)

end Index

end OxideBatch.Lib
