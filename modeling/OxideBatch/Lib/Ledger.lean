import Mathlib

/-! A ledger of numbered attempts: owners with keys, and for every owner the list of
its entries, of which only the last may be live. -/

structure Attempt (Owner : Type) where
  owner : Owner
  live : Bool
  number : Nat

/-- An attempt moves: its owner and its number stay, and once settled it stays so. -/
structure Attempt.Moves {Owner : Type} (before after : Attempt Owner) : Prop where
  owner : after.owner = before.owner
  number : after.number = before.number
  settled : before.live = false → after.live = false

structure Ledger (Key Owner Entry : Type) where
  owner : Key → Option Owner
  key : Owner → Option Key
  record : Entry → Option (Attempt Owner)
  listed : Owner → Option (List Entry)
  last : Owner → Nat

namespace Ledger

set_option linter.unusedSectionVars false

variable {Key Owner Entry : Type} [DecidableEq Key] [DecidableEq Owner] [DecidableEq Entry]
  {ledger ledger' ledger'' : Ledger Key Owner Entry}

/-- Every entry listed for an owner is settled. -/
def Resolved (ledger : Ledger Key Owner Entry) (owner : Owner) : Prop :=
  ∀ listed, ledger.listed owner = some listed → ∀ entry ∈ listed, ∀ attempt,
    ledger.record entry = some attempt → attempt.live = false

section Moves

variable (ledger : Ledger Key Owner Entry)

def opened (key : Key) (owner : Owner) : Ledger Key Owner Entry :=
  { ledger with
    owner := Function.update ledger.owner key (some owner)
    key := Function.update ledger.key owner (some key)
    listed := Function.update ledger.listed owner (some []) }

def entered (owner : Owner) (entry : Entry) (listed : List Entry) : Ledger Key Owner Entry :=
  { ledger with
    record := Function.update ledger.record entry (some ⟨owner, true, ledger.last owner + 1⟩)
    listed := Function.update ledger.listed owner (some (listed ++ [entry]))
    last := Function.update ledger.last owner (ledger.last owner + 1) }

def moved (record : Entry → Option (Attempt Owner)) : Ledger Key Owner Entry :=
  { ledger with record }

def dropped (owner : Owner) (entry : Entry) : Ledger Key Owner Entry :=
  { ledger with
    record := Function.update ledger.record entry none
    listed := Function.update ledger.listed owner
      ((ledger.listed owner).map (List.filter (· ≠ entry))) }

def closed (key : Key) (owner : Owner) : Ledger Key Owner Entry :=
  { ledger with
    owner := Function.update ledger.owner key none
    key := Function.update ledger.key owner none
    listed := Function.update ledger.listed owner none
    last := Function.update ledger.last owner 0 }

end Moves

/-- One move of a ledger, with the identifiers it draws. -/
inductive Step : List (Owner ⊕ Entry) → Ledger Key Owner Entry → Ledger Key Owner Entry → Prop
  | opened {ledger key owner} (free : ledger.owner key = none) (unused : ledger.key owner = none) :
      Step [.inl owner] ledger (ledger.opened key owner)
  | entered {ledger owner entry listed} (lists : ledger.listed owner = some listed)
      (unused : ledger.record entry = none)
      (settled : ∀ last attempt, listed.getLast? = some last → ledger.record last = some attempt →
        attempt.live = false) :
      Step [.inr entry] ledger (ledger.entered owner entry listed)
  | moved {ledger record}
      (moves : ∀ entry, Option.Rel Attempt.Moves (ledger.record entry) (record entry)) :
      Step [] ledger (ledger.moved record)
  | dropped {ledger owner entry}
      (settled : ∀ attempt, ledger.record entry = some attempt → attempt.live = false)
      (resolved : ledger.Resolved owner) :
      Step [] ledger (ledger.dropped owner entry)
  | closed {ledger key owner} (lists : ledger.listed owner = some [])
      (keyed : ledger.key owner = some key) : Step [] ledger (ledger.closed key owner)

/-- Moves one after the other, with all the identifiers they draw. -/
inductive Run : List (Owner ⊕ Entry) → Ledger Key Owner Entry → Ledger Key Owner Entry → Prop
  | refl (ledger : Ledger Key Owner Entry) : Run [] ledger ledger
  | step {drawn later first second third} (step : Step drawn first second)
      (rest : Run later second third) : Run (drawn ++ later) first third

theorem Run.single {drawn} (step : Step drawn ledger ledger') : Run drawn ledger ledger' := by
  have run := Run.step step (.refl _)
  rwa [List.append_nil] at run

theorem Run.trans {drawn later} (first : Run drawn ledger ledger') (rest : Run later ledger' ledger'') :
    Run (drawn ++ later) ledger ledger'' := by
  induction first with
  | refl => exact rest
  | step step _ ih =>
    rw [List.append_assoc]
    exact .step step (ih rest)

section Inversion

variable {owner : Owner} {entry : Entry} {listed : List Entry}

theorem listed_entered {holder : Owner} {after : List Entry}
    (found : (ledger.entered owner entry listed).listed holder = some after) :
    holder = owner ∧ after = listed ++ [entry] ∨
      holder ≠ owner ∧ ledger.listed holder = some after := by
  by_cases same : holder = owner
  · exact .inl ⟨same, by simpa [Ledger.entered, same, eq_comm] using found⟩
  · exact .inr ⟨same, by simpa [Ledger.entered, same] using found⟩

theorem record_entered {other : Entry} {attempt : Attempt Owner}
    (records : (ledger.entered owner entry listed).record other = some attempt) :
    other = entry ∧ attempt = ⟨owner, true, ledger.last owner + 1⟩ ∨
      other ≠ entry ∧ ledger.record other = some attempt := by
  by_cases same : other = entry
  · exact .inl ⟨same, by simpa [Ledger.entered, same, eq_comm] using records⟩
  · exact .inr ⟨same, by simpa [Ledger.entered, same] using records⟩

theorem record_dropped {other : Entry} {attempt : Attempt Owner}
    (records : (ledger.dropped owner entry).record other = some attempt) :
    other ≠ entry ∧ ledger.record other = some attempt := by
  by_cases same : other = entry
  · simp [Ledger.dropped, same] at records
  · exact ⟨same, by simpa [Ledger.dropped, same] using records⟩

/-- Behind a drop every list is one of before, or that without the entry. -/
theorem listed_dropped {holder : Owner} {after : List Entry}
    (found : (ledger.dropped owner entry).listed holder = some after) :
    ∃ before, ledger.listed holder = some before ∧ after.Sublist before := by
  by_cases same : holder = owner
  · subst same
    cases lists : ledger.listed holder with
    | none => simp [Ledger.dropped, lists] at found
    | some before =>
      have found : before.filter (· ≠ entry) = after := by
        simpa [Ledger.dropped, lists] using found
      exact ⟨before, rfl, found ▸ List.filter_sublist⟩
  · exact ⟨after, by simpa [Ledger.dropped, same] using found, .refl after⟩

theorem Resolved.dropped {holder : Owner} (resolved : ledger.Resolved holder) :
    (ledger.dropped owner entry).Resolved holder := by
  intro after found other member attempt records
  obtain ⟨before, lists, sub⟩ := listed_dropped found
  exact resolved before lists other (sub.mem member) attempt (record_dropped records).2

/-- Settled entries of resolved owners are dropped one after the other. -/
theorem Run.drops {drops : List (Owner × Entry)}
    (settled : ∀ drop ∈ drops, ∀ attempt, ledger.record drop.2 = some attempt →
      attempt.live = false) (resolved : ∀ drop ∈ drops, ledger.Resolved drop.1) :
    Run [] ledger (drops.foldl (fun ledger drop => ledger.dropped drop.1 drop.2) ledger) := by
  induction drops generalizing ledger with
  | nil => exact .refl ledger
  | cons drop drops ih =>
    refine .step (.dropped (settled drop (by simp)) (resolved drop (by simp))) (ih ?_ ?_)
    · intro other member attempt records
      exact settled other (List.mem_cons_of_mem _ member) attempt (record_dropped records).2
    · exact fun other member => (resolved other (List.mem_cons_of_mem _ member)).dropped

/-- What is recorded behind a move was recorded before it. -/
theorem moved_from {record : Entry → Option (Attempt Owner)} {after : Attempt Owner}
    (moves : ∀ entry, Option.Rel Attempt.Moves (ledger.record entry) (record entry))
    (found : record entry = some after) :
    ∃ before, ledger.record entry = some before ∧ before.Moves after := by
  have moved := moves entry
  rw [found] at moved
  generalize held : ledger.record entry = earlier at moved
  cases moved with
  | @some before _ moved => exact ⟨before, rfl, moved⟩

end Inversion

section Soundness

/-- Keys and owners are inverse, records are listed, and a live one is the last. -/
structure Sound (ledger : Ledger Key Owner Entry) : Prop where
  inverse : ∀ key owner, ledger.owner key = some owner ↔ ledger.key owner = some key
  listed : ∀ owner, ledger.listed owner = none ↔ ledger.key owner = none
  recorded : ∀ entry attempt, ledger.record entry = some attempt →
    ∃ listed, ledger.listed attempt.owner = some listed ∧ entry ∈ listed
  live : ∀ entry attempt, ledger.record entry = some attempt → attempt.live = true →
    ∃ listed, ledger.listed attempt.owner = some listed ∧ listed.getLast? = some entry

theorem Sound.opened (sound : Sound ledger) {key : Key} {owner : Owner}
    (free : ledger.owner key = none) (unused : ledger.key owner = none) :
    Sound (ledger.opened key owner) := by
  have unlisted := (sound.listed owner).mpr unused
  refine ⟨?_, ?_, ?_, ?_⟩
  · intro other holder
    have same := sound.inverse other holder
    by_cases sameKey : other = key <;> by_cases sameOwner : holder = owner
    · simp [Ledger.opened, sameKey, sameOwner]
    · have distinct : ledger.key holder ≠ some key := by
        intro keyed
        have held := (sound.inverse key holder).mpr keyed
        rw [free] at held
        cases held
      simp [Ledger.opened, sameKey, sameOwner, distinct, Ne.symm sameOwner]
    · have distinct : ledger.owner other ≠ some owner := by
        intro held
        have keyed := (sound.inverse other owner).mp held
        rw [unused] at keyed
        cases keyed
      simp [Ledger.opened, sameKey, sameOwner, distinct, Ne.symm sameKey]
    · simpa [Ledger.opened, sameKey, sameOwner] using same
  · intro holder
    by_cases sameOwner : holder = owner
    · simp [Ledger.opened, sameOwner]
    · simpa [Ledger.opened, sameOwner] using sound.listed holder
  · intro entry attempt records
    obtain ⟨listed, lists, member⟩ := sound.recorded entry attempt records
    have other : attempt.owner ≠ owner := by
      intro same
      rw [same, unlisted] at lists
      cases lists
    exact ⟨listed, by simpa [Ledger.opened, other] using lists, member⟩
  · intro entry attempt records live
    obtain ⟨listed, lists, last⟩ := sound.live entry attempt records live
    have other : attempt.owner ≠ owner := by
      intro same
      rw [same, unlisted] at lists
      cases lists
    exact ⟨listed, by simpa [Ledger.opened, other] using lists, last⟩

theorem Sound.entered (sound : Sound ledger) {owner : Owner} {entry : Entry} {listed : List Entry}
    (lists : ledger.listed owner = some listed) (unused : ledger.record entry = none)
    (settled : ∀ last attempt, listed.getLast? = some last → ledger.record last = some attempt →
      attempt.live = false) :
    Sound (ledger.entered owner entry listed) := by
  refine ⟨sound.inverse, ?_, ?_, ?_⟩
  · intro holder
    by_cases sameOwner : holder = owner
    · have keyed := sound.listed owner
      rw [lists] at keyed
      subst sameOwner
      simpa [Ledger.entered] using keyed
    · simpa [Ledger.entered, sameOwner] using sound.listed holder
  · intro other attempt records
    rcases record_entered records with ⟨rfl, rfl⟩ | ⟨_, recorded⟩
    · exact ⟨listed ++ [other], by simp [Ledger.entered], by simp⟩
    · obtain ⟨before, found, member⟩ := sound.recorded other attempt recorded
      by_cases sameOwner : attempt.owner = owner
      · rw [sameOwner, lists] at found
        cases found
        exact ⟨listed ++ [entry], by simp [Ledger.entered, sameOwner], by simp [member]⟩
      · exact ⟨before, by simpa [Ledger.entered, sameOwner] using found, member⟩
  · intro other attempt records live
    rcases record_entered records with ⟨rfl, rfl⟩ | ⟨_, recorded⟩
    · exact ⟨listed ++ [other], by simp [Ledger.entered], by simp⟩
    · obtain ⟨before, found, last⟩ := sound.live other attempt recorded live
      -- a live entry of the same owner would be the last one, which is settled
      have distinct : attempt.owner ≠ owner := by
        intro sameOwner
        rw [sameOwner, lists] at found
        cases found
        have dead := settled other attempt last recorded
        rw [live] at dead
        cases dead
      exact ⟨before, by simpa [Ledger.entered, distinct] using found, last⟩

theorem Sound.moved (sound : Sound ledger) {record : Entry → Option (Attempt Owner)}
    (moves : ∀ entry, Option.Rel Attempt.Moves (ledger.record entry) (record entry)) :
    Sound (ledger.moved record) := by
  refine ⟨sound.inverse, sound.listed, ?_, ?_⟩
  · intro entry after found
    obtain ⟨before, records, moved⟩ := moved_from moves found
    rw [moved.owner]
    exact sound.recorded entry before records
  · intro entry after found live
    obtain ⟨before, records, moved⟩ := moved_from moves found
    rw [moved.owner]
    cases alive : before.live with
    | true => exact sound.live entry before records alive
    | false =>
      rw [moved.settled alive] at live
      cases live

theorem Sound.dropped (sound : Sound ledger) {owner : Owner} {entry : Entry}
    (resolved : ledger.Resolved owner) : Sound (ledger.dropped owner entry) := by
  refine ⟨sound.inverse, ?_, ?_, ?_⟩
  · intro holder
    by_cases sameOwner : holder = owner
    · subst sameOwner
      simpa [Ledger.dropped] using sound.listed holder
    · simpa [Ledger.dropped, sameOwner] using sound.listed holder
  · intro other attempt records
    obtain ⟨distinct, records⟩ := record_dropped records
    obtain ⟨listed, lists, member⟩ := sound.recorded other attempt records
    by_cases sameOwner : attempt.owner = owner
    · rw [sameOwner] at lists
      exact ⟨listed.filter (· ≠ entry), by simp [Ledger.dropped, sameOwner, lists],
        by simp [member, distinct]⟩
    · exact ⟨listed, by simpa [Ledger.dropped, sameOwner] using lists, member⟩
  · intro other attempt records live
    obtain ⟨_, records⟩ := record_dropped records
    obtain ⟨listed, lists, last⟩ := sound.live other attempt records live
    have distinct : attempt.owner ≠ owner := by
      intro sameOwner
      rw [sameOwner] at lists
      have dead := resolved listed lists other (List.mem_of_getLast? last) attempt records
      rw [live] at dead
      cases dead
    exact ⟨listed, by simpa [Ledger.dropped, distinct] using lists, last⟩

theorem Sound.closed (sound : Sound ledger) {key : Key} {owner : Owner}
    (lists : ledger.listed owner = some []) (keyed : ledger.key owner = some key) :
    Sound (ledger.closed key owner) := by
  have held := (sound.inverse key owner).mpr keyed
  refine ⟨?_, ?_, ?_, ?_⟩
  · intro other holder
    have same := sound.inverse other holder
    by_cases sameKey : other = key <;> by_cases sameOwner : holder = owner
    · simp [Ledger.closed, sameKey, sameOwner]
    · have distinct : ledger.key holder ≠ some key := by
        intro also
        have second := (sound.inverse key holder).mpr also
        rw [held] at second
        exact sameOwner (Option.some.inj second).symm
      simp [Ledger.closed, sameKey, sameOwner, distinct]
    · have distinct : ledger.owner other ≠ some owner := by
        intro also
        have second := (sound.inverse other owner).mp also
        rw [keyed] at second
        exact sameKey (Option.some.inj second).symm
      simp [Ledger.closed, sameKey, sameOwner, distinct]
    · simpa [Ledger.closed, sameKey, sameOwner] using same
  · intro holder
    by_cases sameOwner : holder = owner
    · simp [Ledger.closed, sameOwner]
    · simpa [Ledger.closed, sameOwner] using sound.listed holder
  · intro entry attempt records
    obtain ⟨listed, found, member⟩ := sound.recorded entry attempt records
    have other : attempt.owner ≠ owner := by
      intro same
      rw [same, lists] at found
      cases found
      cases member
    exact ⟨listed, by simpa [Ledger.closed, other] using found, member⟩
  · intro entry attempt records live
    obtain ⟨listed, found, last⟩ := sound.live entry attempt records live
    have other : attempt.owner ≠ owner := by
      intro same
      rw [same, lists] at found
      cases found
      cases last
    exact ⟨listed, by simpa [Ledger.closed, other] using found, last⟩

theorem Sound.step (sound : Sound ledger) {drawn} (step : Step drawn ledger ledger') :
    Sound ledger' := by
  cases step with
  | opened free unused => exact sound.opened free unused
  | entered lists unused settled => exact sound.entered lists unused settled
  | moved moves => exact sound.moved moves
  | dropped settled resolved => exact sound.dropped resolved
  | closed lists keyed => exact sound.closed lists keyed

theorem Sound.run (sound : Sound ledger) {drawn} (run : Run drawn ledger ledger') :
    Sound ledger' := by
  induction run with
  | refl => exact sound
  | step step _ ih => exact ih (sound.step step)

/-- An owner has at most one live entry. -/
theorem Sound.unique_live (sound : Sound ledger) {first second : Entry}
    {attempt attempt' : Attempt Owner} (records : ledger.record first = some attempt)
    (records' : ledger.record second = some attempt') (same : attempt'.owner = attempt.owner)
    (live : attempt.live = true) (live' : attempt'.live = true) : first = second := by
  obtain ⟨listed, lists, last⟩ := sound.live first attempt records live
  obtain ⟨listed', lists', last'⟩ := sound.live second attempt' records' live'
  rw [same, lists] at lists'
  cases lists'
  rw [last] at last'
  exact Option.some.inj last'

end Soundness

section Numbering

variable {used : Owner ⊕ Entry → Prop}

/-- The identifiers used, together with those drawn. -/
def Used (used : Owner ⊕ Entry → Prop) (drawn : List (Owner ⊕ Entry)) (id : Owner ⊕ Entry) : Prop :=
  used id ∨ id ∈ drawn

/-- Entries are listed once, under their owner, with increasing numbers. -/
structure Numbered (used : Owner ⊕ Entry → Prop) (ledger : Ledger Key Owner Entry) : Prop where
  owners : ∀ owner key, ledger.key owner = some key → used (.inl owner)
  entries : ∀ owner listed, ledger.listed owner = some listed → ∀ entry ∈ listed,
    used (.inr entry)
  nodup : ∀ owner listed, ledger.listed owner = some listed → listed.Nodup
  owned : ∀ owner listed, ledger.listed owner = some listed → ∀ entry ∈ listed, ∀ attempt,
    ledger.record entry = some attempt → attempt.owner = owner
  bounded : ∀ entry attempt, ledger.record entry = some attempt →
    attempt.number ≤ ledger.last attempt.owner
  increasing : ∀ owner listed, ledger.listed owner = some listed →
    listed.Pairwise fun first second => ∀ attempt attempt', ledger.record first = some attempt →
      ledger.record second = some attempt' → attempt.number < attempt'.number

theorem listed_opened {key : Key} {owner holder : Owner} {after : List Entry}
    (found : (ledger.opened key owner).listed holder = some after) :
    after = [] ∨ ledger.listed holder = some after := by
  by_cases same : holder = owner
  · exact .inl (by simpa [Ledger.opened, same, eq_comm] using found)
  · exact .inr (by simpa [Ledger.opened, same] using found)

theorem Numbered.opened (numbered : Numbered used ledger) (key : Key) (owner : Owner) :
    Numbered (Used used [.inl owner]) (ledger.opened key owner) := by
  refine ⟨?_, ?_, ?_, ?_, numbered.bounded, ?_⟩
  · intro holder other keyed
    by_cases same : holder = owner
    · exact .inr (by simp [same])
    · exact .inl (numbered.owners holder other (by simpa [Ledger.opened, same] using keyed))
  · intro holder listed found entry member
    rcases listed_opened found with empty | lists
    · simp [empty] at member
    · exact .inl (numbered.entries holder listed lists entry member)
  · intro holder listed found
    rcases listed_opened found with empty | lists
    · simp [empty]
    · exact numbered.nodup holder listed lists
  · intro holder listed found
    rcases listed_opened found with empty | lists
    · simp [empty]
    · exact numbered.owned holder listed lists
  · intro holder listed found
    rcases listed_opened found with empty | lists
    · simp [empty]
    · exact numbered.increasing holder listed lists

theorem Numbered.entered (numbered : Numbered used ledger) {owner : Owner} {entry : Entry}
    {listed : List Entry} (lists : ledger.listed owner = some listed) (fresh : ¬ used (.inr entry)) :
    Numbered (Used used [.inr entry]) (ledger.entered owner entry listed) := by
  have absent : ∀ holder before, ledger.listed holder = some before → entry ∉ before :=
    fun holder before found member => fresh (numbered.entries holder before found entry member)
  refine ⟨?_, ?_, ?_, ?_, ?_, ?_⟩
  · intro holder key keyed
    exact .inl (numbered.owners holder key keyed)
  · intro holder after found other member
    rcases listed_entered found with ⟨rfl, rfl⟩ | ⟨_, before⟩
    · rcases List.mem_append.mp member with earlier | last
      · exact .inl (numbered.entries holder listed lists other earlier)
      · exact .inr (by simpa using last)
    · exact .inl (numbered.entries holder after before other member)
  · intro holder after found
    rcases listed_entered found with ⟨rfl, rfl⟩ | ⟨_, before⟩
    · exact List.nodup_append.mpr ⟨numbered.nodup holder listed lists, by simp, by
        intro other member last lastMember
        rw [List.mem_singleton.mp lastMember]
        exact fun equal => absent holder listed lists (equal ▸ member)⟩
    · exact numbered.nodup holder after before
  · intro holder after found other member attempt records
    rcases record_entered records with ⟨rfl, rfl⟩ | ⟨distinct, recorded⟩
    · rcases listed_entered found with ⟨same, _⟩ | ⟨_, before⟩
      · exact same.symm
      · exact False.elim (absent holder after before member)
    · rcases listed_entered found with ⟨rfl, rfl⟩ | ⟨_, before⟩
      · have earlier : other ∈ listed := by simpa [distinct] using member
        exact numbered.owned holder listed lists other earlier attempt recorded
      · exact numbered.owned holder after before other member attempt recorded
  · intro other attempt records
    rcases record_entered records with ⟨rfl, rfl⟩ | ⟨_, recorded⟩
    · simp [Ledger.entered]
    · have bound := numbered.bounded other attempt recorded
      by_cases same : attempt.owner = owner
      · rw [same] at bound
        simpa [Ledger.entered, same] using Nat.le_succ_of_le bound
      · simpa [Ledger.entered, same] using bound
  · intro holder after found
    rcases listed_entered found with ⟨rfl, rfl⟩ | ⟨_, before⟩
    · refine List.pairwise_append.mpr ⟨?_, by simp, ?_⟩
      · refine (numbered.increasing holder listed lists).imp_of_mem ?_
        intro first second member member' holds attempt attempt' records records'
        rcases record_entered records with ⟨rfl, _⟩ | ⟨_, recorded⟩
        · exact False.elim (absent holder listed lists member)
        · rcases record_entered records' with ⟨rfl, _⟩ | ⟨_, recorded'⟩
          · exact False.elim (absent holder listed lists member')
          · exact holds attempt attempt' recorded recorded'
      · intro first member second lastMember attempt attempt' records records'
        rcases record_entered records with ⟨rfl, _⟩ | ⟨_, recorded⟩
        · exact False.elim (absent holder listed lists member)
        · rcases record_entered records' with ⟨_, rfl⟩ | ⟨distinct, _⟩
          · have bound := numbered.bounded first attempt recorded
            rw [numbered.owned holder listed lists first member attempt recorded] at bound
            exact Nat.lt_succ_of_le bound
          · exact False.elim (distinct (List.mem_singleton.mp lastMember))
    · refine (numbered.increasing holder after before).imp_of_mem ?_
      intro first second member member' holds attempt attempt' records records'
      rcases record_entered records with ⟨rfl, _⟩ | ⟨_, recorded⟩
      · exact False.elim (absent holder after before member)
      · rcases record_entered records' with ⟨rfl, _⟩ | ⟨_, recorded'⟩
        · exact False.elim (absent holder after before member')
        · exact holds attempt attempt' recorded recorded'

theorem Numbered.moved (numbered : Numbered used ledger)
    {record : Entry → Option (Attempt Owner)}
    (moves : ∀ entry, Option.Rel Attempt.Moves (ledger.record entry) (record entry)) :
    Numbered used (ledger.moved record) := by
  refine ⟨numbered.owners, numbered.entries, numbered.nodup, ?_, ?_, ?_⟩
  · intro holder listed lists entry member after found
    obtain ⟨before, records, moved⟩ := moved_from moves found
    rw [moved.owner]
    exact numbered.owned holder listed lists entry member before records
  · intro entry after found
    obtain ⟨before, records, moved⟩ := moved_from moves found
    rw [moved.owner, moved.number]
    exact numbered.bounded entry before records
  · intro holder listed lists
    refine (numbered.increasing holder listed lists).imp ?_
    intro first second holds attempt attempt' found found'
    obtain ⟨before, records, moved⟩ := moved_from moves found
    obtain ⟨before', records', moved'⟩ := moved_from moves found'
    rw [moved.number, moved'.number]
    exact holds before before' records records'

theorem Numbered.dropped (numbered : Numbered used ledger) (owner : Owner) (entry : Entry) :
    Numbered used (ledger.dropped owner entry) := by
  refine ⟨numbered.owners, ?_, ?_, ?_, ?_, ?_⟩
  · intro holder after found other member
    obtain ⟨before, lists, sub⟩ := listed_dropped found
    exact numbered.entries holder before lists other (sub.mem member)
  · intro holder after found
    obtain ⟨before, lists, sub⟩ := listed_dropped found
    exact (numbered.nodup holder before lists).sublist sub
  · intro holder after found other member attempt records
    obtain ⟨before, lists, sub⟩ := listed_dropped found
    exact numbered.owned holder before lists other (sub.mem member) attempt
      (record_dropped records).2
  · intro other attempt records
    exact numbered.bounded other attempt (record_dropped records).2
  · intro holder after found
    obtain ⟨before, lists, sub⟩ := listed_dropped found
    refine ((numbered.increasing holder before lists).sublist sub).imp ?_
    intro first second holds attempt attempt' records records'
    exact holds attempt attempt' (record_dropped records).2 (record_dropped records').2

theorem Numbered.closed (numbered : Numbered used ledger) (sound : Sound ledger) {key : Key}
    {owner : Owner} (lists : ledger.listed owner = some []) :
    Numbered used (ledger.closed key owner) := by
  have origin : ∀ holder after, (ledger.closed key owner).listed holder = some after →
      ledger.listed holder = some after := by
    intro holder after found
    by_cases same : holder = owner
    · simp [Ledger.closed, same] at found
    · simpa [Ledger.closed, same] using found
  refine ⟨?_, ?_, ?_, ?_, ?_, ?_⟩
  · intro holder other keyed
    by_cases same : holder = owner
    · simp [Ledger.closed, same] at keyed
    · exact numbered.owners holder other (by simpa [Ledger.closed, same] using keyed)
  · exact fun holder after found => numbered.entries holder after (origin holder after found)
  · exact fun holder after found => numbered.nodup holder after (origin holder after found)
  · exact fun holder after found => numbered.owned holder after (origin holder after found)
  · intro other attempt records
    obtain ⟨listed, found, member⟩ := sound.recorded other attempt records
    have distinct : attempt.owner ≠ owner := by
      intro same
      rw [same, lists] at found
      cases found
      cases member
    simpa [Ledger.closed, distinct] using numbered.bounded other attempt records
  · exact fun holder after found => numbered.increasing holder after (origin holder after found)

theorem Used.nil {used : Owner ⊕ Entry → Prop} : Used used [] = used := by
  funext id
  simp [Used]

theorem Used.append {used : Owner ⊕ Entry → Prop} {drawn later : List (Owner ⊕ Entry)} :
    Used (Used used drawn) later = Used used (drawn ++ later) := by
  funext id
  simp [Used, or_assoc]

/-- Moves that draw new identifiers only keep the numbering. -/
theorem Numbered.step (numbered : Numbered used ledger) (sound : Sound ledger) {drawn}
    (step : Step drawn ledger ledger') (fresh : ∀ id ∈ drawn, ¬ used id) :
    Numbered (Used used drawn) ledger' := by
  cases step with
  | opened free unused => exact numbered.opened _ _
  | entered lists unused settled => exact numbered.entered lists (fresh _ (by simp))
  | moved moves =>
    rw [Used.nil]
    exact numbered.moved moves
  | dropped settled resolved =>
    rw [Used.nil]
    exact numbered.dropped _ _
  | closed lists keyed =>
    rw [Used.nil]
    exact numbered.closed sound lists

theorem Numbered.run (numbered : Numbered used ledger) (sound : Sound ledger) {drawn}
    (run : Run drawn ledger ledger') (fresh : ∀ id ∈ drawn, ¬ used id) (nodup : drawn.Nodup) :
    Numbered (Used used drawn) ledger' := by
  induction run generalizing used with
  | refl =>
    rw [Used.nil]
    exact numbered
  | step step _ ih =>
    rw [List.nodup_append] at nodup
    rw [← Used.append]
    refine ih (numbered.step sound step fun id member => fresh id (List.mem_append_left _ member))
      (sound.step step) ?_ nodup.2.1
    intro id member seen
    rcases seen with old | new
    · exact fresh id (List.mem_append_right _ member) old
    · exact nodup.2.2 id new id member rfl

theorem Numbered.used_entry (numbered : Numbered used ledger) (sound : Sound ledger) {entry : Entry}
    {attempt : Attempt Owner} (records : ledger.record entry = some attempt) :
    used (.inr entry) := by
  obtain ⟨listed, lists, member⟩ := sound.recorded entry attempt records
  exact numbered.entries attempt.owner listed lists entry member

theorem Sound.keyed (sound : Sound ledger) {owner : Owner} {listed : List Entry}
    (lists : ledger.listed owner = some listed) : ∃ key, ledger.key owner = some key := by
  cases keyed : ledger.key owner with
  | some key => exact ⟨key, rfl⟩
  | none =>
    rw [(sound.listed owner).mpr keyed] at lists
    cases lists

theorem Numbered.used_owner (numbered : Numbered used ledger) (sound : Sound ledger) {entry : Entry}
    {attempt : Attempt Owner} (records : ledger.record entry = some attempt) :
    used (.inl attempt.owner) := by
  obtain ⟨listed, lists, _⟩ := sound.recorded entry attempt records
  obtain ⟨key, keyed⟩ := sound.keyed lists
  exact numbered.owners attempt.owner key keyed

/-- The entries have different numbers. -/
def Apart (ledger : Ledger Key Owner Entry) (first second : Entry) : Prop :=
  ∀ attempt attempt', ledger.record first = some attempt → ledger.record second = some attempt' →
    attempt.number ≠ attempt'.number

instance : Std.Symm ledger.Apart where
  symm _ _ apart attempt attempt' records records' :=
    (apart attempt' attempt records' records).symm

/-- Two entries of one owner have different numbers. -/
theorem Numbered.distinct (numbered : Numbered used ledger) (sound : Sound ledger)
    {first second : Entry} {attempt attempt' : Attempt Owner} (different : first ≠ second)
    (records : ledger.record first = some attempt) (records' : ledger.record second = some attempt')
    (same : attempt'.owner = attempt.owner) : attempt.number ≠ attempt'.number := by
  obtain ⟨listed, lists, member⟩ := sound.recorded first attempt records
  obtain ⟨listed', lists', member'⟩ := sound.recorded second attempt' records'
  rw [same, lists] at lists'
  cases lists'
  have apart : listed.Pairwise ledger.Apart := by
    refine (numbered.increasing attempt.owner listed lists).imp ?_
    intro first second holds attempt attempt' records records'
    exact Nat.ne_of_lt (holds attempt attempt' records records')
  exact apart.forall member member' different attempt attempt' records records'

end Numbering

section History

variable {used : Owner ⊕ Entry → Prop} {start : Ledger Key Owner Entry}

/-- What a ledger can have become without drawing a used identifier again. -/
structure Later (used : Owner ⊕ Entry → Prop) (start ledger : Ledger Key Owner Entry) : Prop where
  kept : ∀ entry after, ledger.record entry = some after →
    (∃ before, start.record entry = some before ∧ after.owner = before.owner ∧
      after.number = before.number ∧ (before.live = false → after.live = false)) ∨
    ¬ used (.inr entry) ∧ (used (.inl after.owner) → start.last after.owner < after.number)
  owners : ∀ owner key, ledger.key owner = some key →
    start.key owner = some key ∨ ¬ used (.inl owner)
  last : ∀ owner key, ledger.key owner = some key → used (.inl owner) →
    start.last owner ≤ ledger.last owner

theorem Later.refl (start : Ledger Key Owner Entry) : Later used start start where
  kept _ after records := .inl ⟨after, records, rfl, rfl, id⟩
  owners _ _ keyed := .inl keyed
  last _ _ _ _ := Nat.le_refl _

theorem Later.step (later : Later used start ledger) (sound : Sound ledger) {drawn}
    (step : Step drawn ledger ledger') (fresh : ∀ id ∈ drawn, ¬ used id) :
    Later used start ledger' := by
  cases step with
  | @opened _ key owner free unused =>
    have new := fresh (.inl owner) (by simp)
    refine ⟨later.kept, ?_, ?_⟩
    · intro holder other keyed
      by_cases same : holder = owner
      · exact .inr (same ▸ new)
      · exact later.owners holder other (by simpa [Ledger.opened, same] using keyed)
    · intro holder other keyed seen
      have same : holder ≠ owner := fun same => new (same ▸ seen)
      exact later.last holder other (by simpa [Ledger.opened, same] using keyed) seen
  | @entered _ owner entry listed lists unused settled =>
    obtain ⟨key, keyed⟩ := sound.keyed lists
    refine ⟨?_, later.owners, ?_⟩
    · intro other after records
      rcases record_entered records with ⟨rfl, rfl⟩ | ⟨_, recorded⟩
      · refine .inr ⟨fresh (.inr other) (by simp), ?_⟩
        intro seen
        exact Nat.lt_succ_of_le (later.last owner key keyed seen)
      · exact later.kept other after recorded
    · intro holder other keyed' seen
      have bound := later.last holder other keyed' seen
      by_cases same : holder = owner
      · subst same
        simpa [Ledger.entered] using Nat.le_succ_of_le bound
      · simpa [Ledger.entered, same] using bound
  | moved moves =>
    refine ⟨?_, later.owners, later.last⟩
    intro entry after found
    obtain ⟨before, records, moved⟩ := moved_from moves found
    rcases later.kept entry before records with ⟨first, recorded, owner, number, dead⟩ | new
    · exact .inl ⟨first, recorded, moved.owner.trans owner, moved.number.trans number,
        fun settled => moved.settled (dead settled)⟩
    · rw [moved.owner, moved.number]
      exact .inr new
  | dropped settled resolved =>
    exact ⟨fun other attempt records => later.kept other attempt (record_dropped records).2,
      later.owners, later.last⟩
  | @closed _ key owner lists keyed =>
    refine ⟨later.kept, ?_, ?_⟩
    · intro holder other keyed'
      by_cases same : holder = owner
      · simp [Ledger.closed, same] at keyed'
      · exact later.owners holder other (by simpa [Ledger.closed, same] using keyed')
    · intro holder other keyed' seen
      by_cases same : holder = owner
      · simp [Ledger.closed, same] at keyed'
      · simpa [Ledger.closed, same] using
          later.last holder other (by simpa [Ledger.closed, same] using keyed') seen

theorem Later.run (later : Later used start ledger) (sound : Sound ledger) {drawn}
    (run : Run drawn ledger ledger') (fresh : ∀ id ∈ drawn, ¬ used id) :
    Later used start ledger' := by
  induction run with
  | refl => exact later
  | step step _ ih =>
    exact ih (later.step sound step fun id member => fresh id (List.mem_append_left _ member))
      (sound.step step) fun id member => fresh id (List.mem_append_right _ member)

/-- An entry that is still recorded has only moved. -/
theorem Later.moves (later : Later used start ledger) (numbered : Numbered used start)
    (sound : Sound start) {entry : Entry} {before after : Attempt Owner}
    (records : start.record entry = some before) (records' : ledger.record entry = some after) :
    before.Moves after := by
  rcases later.kept entry after records' with ⟨first, recorded, owner, number, settled⟩ | ⟨new, _⟩
  · rw [records] at recorded
    cases recorded
    exact ⟨owner, number, settled⟩
  · exact False.elim (new (numbered.used_entry sound records))

/-- A number of an owner is never given to another entry. -/
theorem Later.distinct (later : Later used start ledger) (numbered : Numbered used start)
    (sound : Sound start) {first second : Entry} {before after : Attempt Owner}
    (different : first ≠ second) (records : start.record first = some before)
    (records' : ledger.record second = some after) (same : after.owner = before.owner) :
    before.number ≠ after.number := by
  rcases later.kept second after records' with ⟨earlier, recorded, sameOwner, sameNumber, _⟩ | ⟨_, new⟩
  · rw [sameNumber]
    exact numbered.distinct sound different records recorded (sameOwner.symm.trans same)
  · have above := new (same ▸ numbered.used_owner sound records)
    rw [same] at above
    exact Nat.ne_of_lt (Nat.lt_of_le_of_lt (numbered.bounded first before records) above)

end History

end Ledger
