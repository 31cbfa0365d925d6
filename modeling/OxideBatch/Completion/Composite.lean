import OxideBatch.Chunk.ReadAccount
import OxideBatch.Chunk.Settlement
import OxideBatch.Completion.Policies

/-! The calls that a tree of composite policies makes to its leaves: whatever panics, a leaf
that has begun is ended once, and as committed just where its attempt commits. -/

namespace OxideBatch.Completion

open OxideBatch.Core OxideBatch.Chunk OxideBatch.Lib Program

section Calls

/-- A tree of composites over policies of any kind. -/
inductive PolicyTree where
  | leaf
  | composite (mode : CompositeMode) (members : List PolicyTree)

/-- The way from a leaf up to the root. -/
abbrev LeafPath := List Nat

/-- A call to a leaf, with its answer: whether it returns, and what it decides. -/
inductive LeafCall where
  | begins (returned : Bool)
  | decides (itemsRead : Nat) (answer : Option Bool)
  | ends (outcome : ChunkAttemptOutcome) (returned : Bool)

/-- A call to one leaf, and how many calls the runtime had made before. -/
structure LeafEvent where
  stamp : Nat
  path : LeafPath
  call : LeafCall

abbrev LeafTrace := List LeafEvent

/-- How the leaves answer; an answer is free to depend on all calls before. -/
structure Leaves where
  begins : LeafTrace → LeafPath → Bool
  decides : LeafTrace → LeafPath → Nat → Option Bool
  ends : LeafTrace → LeafPath → ChunkAttemptOutcome → Bool

abbrev LeafM := StateM LeafTrace

variable (leaves : Leaves) (stamp : Nat)

def leafBegin (path : LeafPath) : LeafM Bool := fun trace =>
  let returned := leaves.begins trace path
  (returned, trace ++ [⟨stamp, path, .begins returned⟩])

def leafDecide (itemsRead : Nat) (path : LeafPath) : LeafM (Option Bool) := fun trace =>
  let answer := leaves.decides trace path itemsRead
  (answer, trace ++ [⟨stamp, path, .decides itemsRead answer⟩])

def leafEnd (outcome : ChunkAttemptOutcome) (path : LeafPath) : LeafM Bool := fun trace =>
  let returned := leaves.ends trace path outcome
  (returned, trace ++ [⟨stamp, path, .ends outcome returned⟩])

namespace PolicyTree

mutual

/-- `end_chunk`, and whether it returns: every member is ended, whichever panics. -/
def endChunk (outcome : ChunkAttemptOutcome) : PolicyTree → LeafPath → LeafM Bool
  | .leaf, path => leafEnd leaves stamp outcome path
  | .composite _ members, path => endMembers outcome members path 0

def endMembers (outcome : ChunkAttemptOutcome) : List PolicyTree → LeafPath → Nat → LeafM Bool
  | [], _, _ => pure true
  | member :: members, path, index => do
    let returned ← member.endChunk outcome (index :: path)
    let others ← endMembers outcome members path (index + 1)
    pure (returned && others)

end

/-- Behind the panic of a member those that have begun are ended as unknown. -/
def endBegun (members : List PolicyTree) (path : LeafPath) : Option Nat → LeafM Bool
  | none => pure true
  | some panickedAt => do
    let _ ← endMembers leaves stamp .unknown (members.take panickedAt) path 0
    pure false

mutual

/-- `begin_chunk`, and whether it returns. -/
def beginChunk : PolicyTree → LeafPath → LeafM Bool
  | .leaf, path => leafBegin leaves stamp path
  | .composite _ members, path => do
    endBegun leaves stamp members path (← beginMembers members path 0)

/-- The members in order, up to the first that panics. -/
def beginMembers : List PolicyTree → LeafPath → Nat → LeafM (Option Nat)
  | [], _, _ => pure none
  | member :: members, path, index => do
    if ← member.beginChunk (index :: path) then beginMembers members path (index + 1)
    else pure (some index)

end

mutual

/-- `is_complete`; nothing where a member panics. -/
def isComplete (itemsRead : Nat) : PolicyTree → LeafPath → LeafM (Option Bool)
  | .leaf, path => leafDecide leaves stamp itemsRead path
  | .composite mode members, path => decideMembers itemsRead mode members path 0

/-- `any` and `all`: the first member that decides ends the pass. -/
def decideMembers (itemsRead : Nat) (mode : CompositeMode) :
    List PolicyTree → LeafPath → Nat → LeafM (Option Bool)
  | [], _, _ => pure (some (decide (mode = .all)))
  | member :: members, path, index => do
    match ← member.isComplete itemsRead (index :: path) with
    | none => pure none
    | some answer =>
      if answer = decide (mode = .any) then pure (some answer)
      else decideMembers itemsRead mode members path (index + 1)

end

mutual

/-- The leaves of a tree, each by its path. -/
def leafPaths : PolicyTree → LeafPath → List LeafPath
  | .leaf, path => [path]
  | .composite _ members, path => memberPaths members path 0

def memberPaths : List PolicyTree → LeafPath → Nat → List LeafPath
  | [], _, _ => []
  | member :: members, path, index =>
    member.leafPaths (index :: path) ++ memberPaths members path (index + 1)

end

end PolicyTree

end Calls

section Owed

def LeafEvent.owesStep (path : LeafPath) (owes : Bool) (event : LeafEvent) : Bool :=
  if event.path = path then
    match event.call with
    | .begins returned => returned
    | .decides _ _ => owes
    | .ends _ _ => false
  else owes

/-- Whether a leaf has begun and was not ended since. -/
def leafOwes (path : LeafPath) (trace : LeafTrace) : Bool :=
  trace.foldl (LeafEvent.owesStep path) false

/-- A leaf begins when it owes no end, and is ended when it does. -/
def LeafEvent.ProperAt (trace : LeafTrace) (event : LeafEvent) : Prop :=
  match event.call with
  | .begins _ => leafOwes event.path trace = false
  | .decides _ _ => True
  | .ends _ _ => leafOwes event.path trace = true

/-- An end of a leaf has one of these outcomes. -/
def LeafEvent.EndsAs (allowed : ChunkAttemptOutcome → Prop) (event : LeafEvent) : Prop :=
  ∀ outcome returned, event.call = .ends outcome returned → allowed outcome

theorem leafOwes_snoc (path : LeafPath) (trace : LeafTrace) (event : LeafEvent) :
    leafOwes path (trace ++ [event]) = event.owesStep path (leafOwes path trace) := by
  simp [leafOwes]

/-- A leaf that was never called owes nothing. -/
theorem leafOwes_absent {path : LeafPath} {trace : LeafTrace}
    (absent : ∀ event ∈ trace, event.path ≠ path) : leafOwes path trace = false := by
  induction trace using List.reverseRecOn with
  | nil => rfl
  | append_singleton trace event ih =>
    rw [leafOwes_snoc, ih fun other member => absent other (by simp [member])]
    exact if_neg (absent event (by simp))

/-- Properly made calls to leaves of `paths`, at one call of the runtime. -/
structure Passage (paths : List LeafPath) (stamp : Nat) (allowed : ChunkAttemptOutcome → Prop)
    (before after : LeafTrace) : Prop where
  proper : Throughout LeafEvent.ProperAt after
  events : ∃ events, after = before ++ events ∧
    ∀ event ∈ events, event.path ∈ paths ∧ event.stamp = stamp ∧ event.EndsAs allowed

variable {paths paths' : List LeafPath} {stamp : Nat} {allowed : ChunkAttemptOutcome → Prop}
  {before middle after : LeafTrace}

theorem Passage.refl (proper : Throughout LeafEvent.ProperAt before) :
    Passage paths stamp allowed before before :=
  ⟨proper, [], by simp, by simp⟩

theorem Passage.trans (first : Passage paths stamp allowed before middle)
    (second : Passage paths' stamp allowed middle after) (inside : ∀ path ∈ paths, path ∈ paths') :
    Passage paths' stamp allowed before after := by
  obtain ⟨front, trace, marked⟩ := first.events
  obtain ⟨back, trace', marked'⟩ := second.events
  refine ⟨second.proper, front ++ back, by rw [trace', trace, List.append_assoc], ?_⟩
  intro event member
  rcases List.mem_append.mp member with early | late
  · obtain ⟨path, rest⟩ := marked event early
    exact ⟨inside _ path, rest⟩
  · exact marked' event late

theorem Passage.within (passage : Passage paths stamp allowed before after)
    (inside : ∀ path ∈ paths, path ∈ paths') : Passage paths' stamp allowed before after :=
  passage.trans (.refl passage.proper) inside

theorem Passage.allowing {allowed' : ChunkAttemptOutcome → Prop}
    (passage : Passage paths stamp allowed before after)
    (weaker : ∀ outcome, allowed outcome → allowed' outcome) :
    Passage paths stamp allowed' before after := by
  obtain ⟨events, trace, marked⟩ := passage.events
  refine ⟨passage.proper, events, trace, fun event member => ?_⟩
  obtain ⟨path, stamped, ends⟩ := marked event member
  exact ⟨path, stamped, fun outcome returned same => weaker _ (ends outcome returned same)⟩

theorem Passage.snoc {event : LeafEvent} (proper : Throughout LeafEvent.ProperAt before)
    (here : event.ProperAt before) (known : event.path ∈ paths) (timely : event.stamp = stamp)
    (ends : event.EndsAs allowed) : Passage paths stamp allowed before (before ++ [event]) :=
  ⟨proper.snoc here, [event], rfl, fun other member => by
    rw [List.mem_singleton.mp member]
    exact ⟨known, timely, ends⟩⟩

/-- Other leaves are not concerned. -/
theorem Passage.aside (passage : Passage paths stamp allowed before after) {path : LeafPath}
    (other : path ∉ paths) : leafOwes path after = leafOwes path before := by
  obtain ⟨events, trace, marked⟩ := passage.events
  rw [trace]
  clear trace passage
  induction events using List.reverseRecOn with
  | nil => rw [List.append_nil]
  | append_singleton events event ih =>
    rw [← List.append_assoc, leafOwes_snoc, ih fun event member => marked event (by simp [member])]
    have elsewhere : event.path ≠ path := by
      rintro rfl
      exact other (marked event (by simp)).1
    exact if_neg elsewhere

end Owed

section Tree

open PolicyTree

variable {leaves : Leaves} {stamp : Nat}

mutual

private theorem leafPaths_below (tree : PolicyTree) {path : LeafPath} :
    ∀ below ∈ tree.leafPaths path, path <:+ below := by
  intro below member
  cases tree with
  | leaf =>
    rw [leafPaths, List.mem_singleton] at member
    exact member ▸ List.suffix_rfl
  | composite mode members =>
    rw [leafPaths] at member
    obtain ⟨index, _, _, under⟩ := memberPaths_below members below member
    exact (List.suffix_cons index path).trans under

private theorem memberPaths_below (members : List PolicyTree) {path : LeafPath} {index : Nat} :
    ∀ below ∈ memberPaths members path index, ∃ number, index ≤ number ∧
      number < index + members.length ∧ (number :: path) <:+ below := by
  intro below member
  cases members with
  | nil => cases member
  | cons first members =>
    rw [memberPaths] at member
    rcases List.mem_append.mp member with here | later
    · exact ⟨index, Nat.le_refl index, by simp, leafPaths_below first below here⟩
    · obtain ⟨number, behind, within, under⟩ := memberPaths_below members below later
      exact ⟨number, by omega, by simp only [List.length_cons]; omega, under⟩

end

private theorem number_unique {path below : LeafPath} {first second : Nat}
    (under : (first :: path) <:+ below) (under' : (second :: path) <:+ below) : first = second :=
  (List.cons.inj ((List.suffix_of_suffix_length_le under under' (by simp)).eq_of_length
    (by simp))).1

/-- The leaves of a member are not those of the members behind it. -/
private theorem paths_apart {member : PolicyTree} {members : List PolicyTree} {path below : LeafPath}
    {index : Nat} (here : below ∈ member.leafPaths (index :: path)) :
    below ∉ memberPaths members path (index + 1) := by
  intro there
  obtain ⟨number, beyond, _, under⟩ := memberPaths_below members below there
  have same := number_unique (leafPaths_below member below here) under
  omega

/-- The leaves of members up to a place are not those of the members from there on. -/
private theorem members_apart {front back : List PolicyTree} {path below : LeafPath}
    {index place : Nat} (upTo : index + front.length ≤ place)
    (there : below ∈ memberPaths back path place) : below ∉ memberPaths front path index := by
  intro here
  obtain ⟨number, _, within, under⟩ := memberPaths_below front below here
  obtain ⟨number', beyond, _, under'⟩ := memberPaths_below back below there
  have same := number_unique under under'
  omega

/-- The leaves of the members in front of a place, and those from there on. -/
private theorem memberPaths_append (front back : List PolicyTree) (path : LeafPath) (index : Nat) :
    memberPaths (front ++ back) path index =
      memberPaths front path index ++ memberPaths back path (index + front.length) := by
  induction front generalizing index with
  | nil => rfl
  | cons member front ih =>
    rw [List.cons_append, memberPaths, memberPaths, ih, List.append_assoc, List.length_cons,
      Nat.add_right_comm]
    rfl

mutual

/-- An end reaches every leaf of a tree that has begun. -/
private theorem endChunk_ends (outcome : ChunkAttemptOutcome) (tree : PolicyTree) (path : LeafPath)
    {trace : LeafTrace} (proper : Throughout LeafEvent.ProperAt trace)
    (owed : ∀ below ∈ tree.leafPaths path, leafOwes below trace = true) :
    Passage (tree.leafPaths path) stamp (· = outcome) trace
        (tree.endChunk leaves stamp outcome path trace).2 ∧
      ∀ below ∈ tree.leafPaths path,
        leafOwes below (tree.endChunk leaves stamp outcome path trace).2 = false := by
  cases tree with
  | leaf =>
    rw [leafPaths] at owed ⊢
    refine ⟨.snoc proper (owed path (by simp)) (by simp) rfl ?_, fun below member => ?_⟩
    · rintro other returned ⟨⟩
      rfl
    · obtain rfl := List.mem_singleton.mp member
      exact (leafOwes_snoc _ _ _).trans (if_pos rfl)
  | composite mode members =>
    rw [leafPaths] at owed ⊢
    exact endMembers_ends outcome members path 0 proper owed

private theorem endMembers_ends (outcome : ChunkAttemptOutcome) (members : List PolicyTree)
    (path : LeafPath) (index : Nat) {trace : LeafTrace}
    (proper : Throughout LeafEvent.ProperAt trace)
    (owed : ∀ below ∈ memberPaths members path index, leafOwes below trace = true) :
    Passage (memberPaths members path index) stamp (· = outcome) trace
        (endMembers leaves stamp outcome members path index trace).2 ∧
      ∀ below ∈ memberPaths members path index,
        leafOwes below (endMembers leaves stamp outcome members path index trace).2 = false := by
  cases members with
  | nil => exact ⟨.refl proper, fun below member => by cases member⟩
  | cons member members =>
    rw [memberPaths] at owed ⊢
    obtain ⟨first, ended⟩ := endChunk_ends outcome member (index :: path) proper
      fun below here => owed below (List.mem_append_left _ here)
    obtain ⟨rest, others⟩ := endMembers_ends outcome members path (index + 1) first.proper
      fun below later => by
        rw [first.aside fun here => paths_apart here later]
        exact owed below (List.mem_append_right _ later)
    refine ⟨(first.within fun _ here => List.mem_append_left _ here).trans
      (rest.within fun _ later => List.mem_append_right _ later) fun _ same => same,
      fun below known => ?_⟩
    rcases List.mem_append.mp known with here | later
    · exact (rest.aside (paths_apart here)).trans (ended below here)
    · exact others below later

end

/-- The members in front of a place owe an end, those from there on do not. -/
structure BegunUpTo (members : List PolicyTree) (path : LeafPath) (index panickedAt : Nat)
    (trace : LeafTrace) : Prop where
  reached : index ≤ panickedAt
  within : panickedAt ≤ index + members.length
  front : ∀ below ∈ memberPaths (members.take (panickedAt - index)) path index,
    leafOwes below trace = true
  back : ∀ below ∈ memberPaths (members.drop (panickedAt - index)) path panickedAt,
    leafOwes below trace = false

/-- What a pass over the members leaves: all have begun, or those in front of the panic. -/
def Begun (members : List PolicyTree) (path : LeafPath) (index : Nat) (trace : LeafTrace) :
    Option Nat → Prop
  | none => ∀ below ∈ memberPaths members path index, leafOwes below trace = true
  | some panickedAt => BegunUpTo members path index panickedAt trace

/-- The members behind a member that has begun. -/
private theorem Begun.cons {member : PolicyTree} {members : List PolicyTree} {path : LeafPath}
    {index : Nat} {trace : LeafTrace} {panicked : Option Nat}
    (begun : Begun members path (index + 1) trace panicked)
    (here : ∀ below ∈ member.leafPaths (index :: path), leafOwes below trace = true) :
    Begun (member :: members) path index trace panicked := by
  cases panicked with
  | none =>
    intro below known
    rw [memberPaths] at known
    exact (List.mem_append.mp known).elim (here below) (begun below)
  | some panickedAt =>
    have within := begun.within
    obtain ⟨count, rfl⟩ := Nat.exists_eq_add_of_le begun.reached
    have behind : index + 1 + count - index = count + 1 := by omega
    have counted : index + 1 + count - (index + 1) = count := by omega
    have front := begun.front
    have back := begun.back
    rw [counted] at front back
    refine ⟨by omega, by simp only [List.length_cons]; omega, fun below known => ?_,
      fun below known => ?_⟩
    · rw [behind, List.take_succ_cons, memberPaths] at known
      exact (List.mem_append.mp known).elim (here below) (front below)
    · rw [behind, List.drop_succ_cons] at known
      exact back below known

private theorem endBegun_ends {members : List PolicyTree} {path : LeafPath} {trace : LeafTrace}
    {panicked : Option Nat} (proper : Throughout LeafEvent.ProperAt trace)
    (begun : Begun members path 0 trace panicked) :
    Passage (memberPaths members path 0) stamp
        (fun outcome => outcome = .unknown ∧ (endBegun leaves stamp members path panicked trace).1 =
          false) trace (endBegun leaves stamp members path panicked trace).2 ∧
      ∀ below ∈ memberPaths members path 0,
        leafOwes below (endBegun leaves stamp members path panicked trace).2 =
          (endBegun leaves stamp members path panicked trace).1 := by
  cases panicked with
  | none => exact ⟨.refl proper, begun⟩
  | some panickedAt =>
    have counted : 0 + (members.take panickedAt).length = panickedAt := by
      rw [Nat.zero_add, List.length_take]
      exact Nat.min_eq_left (by simpa using begun.within)
    have parts : memberPaths members path 0 = memberPaths (members.take panickedAt) path 0 ++
        memberPaths (members.drop panickedAt) path panickedAt := by
      conv_lhs => rw [← List.take_append_drop panickedAt members, memberPaths_append, counted]
    obtain ⟨passage, ended⟩ := @endMembers_ends leaves stamp .unknown
      (members.take panickedAt) path 0 _ proper begun.front
    rw [parts]
    refine ⟨(passage.within fun _ front => List.mem_append_left _ front).allowing
      fun outcome same => ⟨same, rfl⟩, fun below known => ?_⟩
    rcases List.mem_append.mp known with front | back
    · exact ended below front
    · exact (passage.aside (members_apart (Nat.le_of_eq counted) back)).trans
        (begun.back below back)

mutual

/-- Behind a begin that returns every leaf of a tree has begun, and behind one that panics none
is left so. -/
private theorem beginChunk_begins (tree : PolicyTree) (path : LeafPath) {trace : LeafTrace}
    (proper : Throughout LeafEvent.ProperAt trace)
    (free : ∀ below ∈ tree.leafPaths path, leafOwes below trace = false) :
    Passage (tree.leafPaths path) stamp
        (fun outcome => outcome = .unknown ∧ (tree.beginChunk leaves stamp path trace).1 = false)
        trace (tree.beginChunk leaves stamp path trace).2 ∧
      ∀ below ∈ tree.leafPaths path, leafOwes below (tree.beginChunk leaves stamp path trace).2 =
        (tree.beginChunk leaves stamp path trace).1 := by
  cases tree with
  | leaf =>
    rw [leafPaths] at free ⊢
    refine ⟨.snoc proper (free path (by simp)) (by simp) rfl ?_, fun below member => ?_⟩
    · rintro other returned ⟨⟩
    · obtain rfl := List.mem_singleton.mp member
      exact (leafOwes_snoc _ _ _).trans (if_pos rfl)
  | composite mode members =>
    rw [leafPaths] at free ⊢
    obtain ⟨passage, begun⟩ := beginMembers_begins members path 0 proper free
    obtain ⟨unwound, settled⟩ := @endBegun_ends leaves stamp _ _ _ _ passage.proper begun
    refine ⟨(passage.allowing fun outcome ends => ⟨ends.1, ?_⟩).trans unwound
      fun _ known => known, settled⟩
    obtain ⟨panickedAt, found⟩ := Option.isSome_iff_exists.mp ends.2
    change (endBegun leaves stamp members path (beginMembers leaves stamp members path 0 trace).1
      (beginMembers leaves stamp members path 0 trace).2).1 = false
    rw [found]
    rfl

private theorem beginMembers_begins (members : List PolicyTree) (path : LeafPath) (index : Nat)
    {trace : LeafTrace} (proper : Throughout LeafEvent.ProperAt trace)
    (free : ∀ below ∈ memberPaths members path index, leafOwes below trace = false) :
    Passage (memberPaths members path index) stamp
        (fun outcome => outcome = .unknown ∧
          (beginMembers leaves stamp members path index trace).1.isSome = true)
        trace (beginMembers leaves stamp members path index trace).2 ∧
      Begun members path index (beginMembers leaves stamp members path index trace).2
        (beginMembers leaves stamp members path index trace).1 := by
  cases members with
  | nil => exact ⟨.refl proper, fun below member => by cases member⟩
  | cons member members =>
    rw [memberPaths] at free ⊢
    obtain ⟨first, begun⟩ := beginChunk_begins member (index :: path) proper
      fun below here => free below (List.mem_append_left _ here)
    have later : ∀ below ∈ memberPaths members path (index + 1),
        leafOwes below (member.beginChunk leaves stamp (index :: path) trace).2 = false := by
      intro below known
      rw [first.aside fun here => paths_apart here known]
      exact free below (List.mem_append_right _ known)
    have unfolds : beginMembers leaves stamp (member :: members) path index trace =
        if (member.beginChunk leaves stamp (index :: path) trace).1 = true then
          beginMembers leaves stamp members path (index + 1)
            (member.beginChunk leaves stamp (index :: path) trace).2
        else (some index, (member.beginChunk leaves stamp (index :: path) trace).2) := by
      rw [beginMembers]
      change (if (member.beginChunk leaves stamp (index :: path) trace).1 = true then
        beginMembers leaves stamp members path (index + 1) else pure (some index))
          (member.beginChunk leaves stamp (index :: path) trace).2 = _
      split
      · rfl
      · rfl
    rw [unfolds]
    split
    · rename_i returned
      obtain ⟨rest, others⟩ := beginMembers_begins members path (index + 1) first.proper later
      refine ⟨((first.within fun _ here => List.mem_append_left _ here).allowing
        fun outcome ends => (Bool.false_ne_true (ends.2.symm.trans returned)).elim).trans
        (rest.within fun _ known => List.mem_append_right _ known) fun _ same => same,
        others.cons fun below here => ?_⟩
      rw [rest.aside (paths_apart here), begun below here, returned]
    · rename_i panicked
      refine ⟨(first.within fun _ here => List.mem_append_left _ here).allowing
        fun outcome ends => ⟨ends.1, rfl⟩, Nat.le_refl index, by simp,
        fun below known => ?_, fun below known => ?_⟩
      · rw [Nat.sub_self] at known
        cases known
      · rw [Nat.sub_self, List.drop_zero, memberPaths] at known
        rcases List.mem_append.mp known with here | there
        · exact (begun below here).trans (Bool.eq_false_iff.mpr panicked)
        · exact later below there

end

/-- Only decisions are asked for, so no leaf begins and none is ended. -/
structure Asks (paths : List LeafPath) (stamp : Nat) (before after : LeafTrace) : Prop where
  passage : Throughout LeafEvent.ProperAt before → Passage paths stamp (fun _ => False) before after
  same : ∀ below, leafOwes below after = leafOwes below before

private theorem Asks.refl (paths : List LeafPath) (trace : LeafTrace) :
    Asks paths stamp trace trace := ⟨.refl, fun _ => rfl⟩

private theorem Asks.trans {paths : List LeafPath} {first second third : LeafTrace}
    (left : Asks paths stamp first second) (right : Asks paths stamp second third) :
    Asks paths stamp first third :=
  ⟨fun proper => (left.passage proper).trans (right.passage (left.passage proper).proper)
    fun _ known => known, fun below => (right.same below).trans (left.same below)⟩

private theorem Asks.within {paths paths' : List LeafPath} {first second : LeafTrace}
    (asks : Asks paths stamp first second) (inside : ∀ path ∈ paths, path ∈ paths') :
    Asks paths' stamp first second :=
  ⟨fun proper => (asks.passage proper).within inside, asks.same⟩

private theorem leafDecide_asks (itemsRead : Nat) (path : LeafPath) :
    Along (Asks [path] stamp) (leafDecide leaves stamp itemsRead path) := by
  intro trace
  refine ⟨fun proper => .snoc proper trivial (by simp) rfl ?_, fun below => ?_⟩
  · rintro outcome returned ⟨⟩
  · refine (leafOwes_snoc _ _ _).trans ?_
    unfold LeafEvent.owesStep
    split
    · rfl
    · rfl

mutual

private theorem isComplete_asks (itemsRead : Nat) (tree : PolicyTree) (path : LeafPath) :
    Along (Asks (tree.leafPaths path) stamp)
      (tree.isComplete leaves stamp itemsRead path) := by
  cases tree with
  | leaf =>
    rw [leafPaths, isComplete]
    exact leafDecide_asks itemsRead path
  | composite mode members =>
    rw [leafPaths, isComplete]
    exact decideMembers_asks itemsRead mode members path 0

private theorem decideMembers_asks (itemsRead : Nat) (mode : CompositeMode)
    (members : List PolicyTree) (path : LeafPath) (index : Nat) :
    Along (Asks (memberPaths members path index) stamp)
      (decideMembers leaves stamp itemsRead mode members path index) := by
  cases members with
  | nil =>
    rw [decideMembers]
    exact Along.pure (Asks.refl _) _
  | cons member members =>
    rw [decideMembers, memberPaths]
    have first : Along (Asks (member.leafPaths (index :: path) ++
        memberPaths members path (index + 1)) stamp)
        (member.isComplete leaves stamp itemsRead (index :: path)) :=
      fun trace => (isComplete_asks itemsRead member (index :: path) trace).within
        fun _ here => List.mem_append_left _ here
    refine Along.bind Asks.trans first fun answer => ?_
    cases answer with
    | none => exact Along.pure (Asks.refl _) _
    | some decided =>
      refine Along.ite (Along.pure (Asks.refl _) _) fun trace => ?_
      exact (decideMembers_asks itemsRead mode members path (index + 1) trace).within
        fun _ later => List.mem_append_right _ later

end

end Tree

section Runs

variable {I O : Type} (tree : PolicyTree) (leaves : Trace I O → Leaves)

/-- What the leaves are told at a call of the runtime, if the answer is that of the tree. -/
def followCall (trace : Trace I O) (history : LeafTrace) (event : Event I O) : Option LeafTrace :=
  match event with
  | ⟨.policyBegin, answer⟩ =>
    let made := tree.beginChunk (leaves trace) trace.length [] history
    if made.1 = Option.isSome answer then some made.2 else none
  | ⟨.policyIsComplete itemsRead, answer⟩ =>
    let made := tree.isComplete (leaves trace) trace.length itemsRead [] history
    let decided : Option Bool := answer
    if made.1 = decided then some made.2 else none
  | ⟨.policyEnd outcome, answer⟩ =>
    let made := tree.endChunk (leaves trace) trace.length outcome [] history
    if made.1 = Option.isSome answer then some made.2 else none
  | _ => some history

def followFrom (before : Trace I O) (history : LeafTrace) : Trace I O → Option LeafTrace
  | [] => some history
  | event :: later => do
    followFrom (before ++ [event]) (← followCall tree leaves before history event) later

/-- What the leaves are told in a run whose completion policy is the tree. -/
def follow (trace : Trace I O) : Option LeafTrace := followFrom tree leaves [] [] trace

/-- The calls up to the end of the attempt that goes on after so many. -/
def attemptUpTo (trace : Trace I O) (stamp : Nat) : Trace I O :=
  trace.take stamp ++ (trace.drop stamp).takeWhile fun event => !event.begins

variable {tree leaves} {components : Components}

private theorem followFrom_snoc (before later : Trace I O) (history : LeafTrace)
    (event : Event I O) :
    followFrom tree leaves before history (later ++ [event]) =
      (followFrom tree leaves before history later).bind fun told =>
        followCall tree leaves (before ++ later) told event := by
  induction later generalizing before history with
  | nil =>
    simp [followFrom]
  | cons first later ih =>
    rw [List.cons_append, followFrom, followFrom]
    cases followCall tree leaves before history first with
    | none => rfl
    | some told =>
      change followFrom tree leaves (before ++ [first]) told (later ++ [event]) = _
      rw [ih, List.append_assoc, List.singleton_append]
      rfl

private theorem follow_snoc {trace : Trace I O} {event : Event I O} {history : LeafTrace}
    (followed : follow tree leaves (trace ++ [event]) = some history) :
    ∃ earlier, follow tree leaves trace = some earlier ∧
      followCall tree leaves trace earlier event = some history := by
  unfold follow at followed ⊢
  rw [followFrom_snoc, List.nil_append] at followed
  exact Option.bind_eq_some_iff.mp followed

/-- The call of the runtime at which a leaf is ended: an end of the policy, or a begin that
panicked. -/
def Settles (trace : Trace I O) (stamp : Nat) (outcome : ChunkAttemptOutcome) : Prop :=
  ∃ earlier call later, trace = earlier ++ call :: later ∧ earlier.length = stamp ∧
    (call.query = .policyEnd outcome ∨ call = ⟨.policyBegin, none⟩ ∧ outcome = .unknown)

/-- What the leaves have been told in a run up to here. -/
structure Told (tree : PolicyTree) (trace : Trace I O) (history : LeafTrace) : Prop where
  proper : Throughout LeafEvent.ProperAt history
  owed : ∀ path ∈ tree.leafPaths [], leafOwes path history = owesEnd trace
  known : ∀ event ∈ history, event.path ∈ tree.leafPaths []
  settles : ∀ event ∈ history, ∀ outcome returned, event.call = .ends outcome returned →
    Settles trace event.stamp outcome

theorem Settles.snoc {trace : Trace I O} {stamp : Nat} {outcome : ChunkAttemptOutcome}
    (settles : Settles trace stamp outcome) (event : Event I O) :
    Settles (trace ++ [event]) stamp outcome := by
  obtain ⟨earlier, call, later, split, rest⟩ := settles
  exact ⟨earlier, call, later ++ [event], by rw [split, List.append_assoc, List.cons_append], rest⟩

/-- One call of the runtime, by the calls it makes to the leaves. -/
private theorem Told.passage {trace : Trace I O} {history after : LeafTrace} {event : Event I O}
    {allowed : ChunkAttemptOutcome → Prop} (told : Told tree trace history)
    (passage : Passage (tree.leafPaths []) trace.length allowed history after)
    (owed : ∀ path ∈ tree.leafPaths [], leafOwes path after = owesEnd (trace ++ [event]))
    (settles : ∀ outcome, allowed outcome →
      event.query = .policyEnd outcome ∨ event = ⟨.policyBegin, none⟩ ∧ outcome = .unknown) :
    Told tree (trace ++ [event]) after := by
  obtain ⟨events, same, marked⟩ := passage.events
  refine ⟨passage.proper, owed, ?_, ?_⟩
  · rw [same]
    intro other member
    exact (List.mem_append.mp member).elim (told.known other) fun new => (marked other new).1
  · rw [same]
    intro other member outcome returned ends
    rcases List.mem_append.mp member with old | new
    · exact (told.settles other old outcome returned ends).snoc event
    · obtain ⟨_, stamped, endsAs⟩ := marked other new
      exact ⟨trace, event, [], rfl, stamped.symm, settles outcome (endsAs outcome returned ends)⟩

private theorem of_answered {given : Prop} [Decidable given] {made history : LeafTrace}
    (answered : (if given then some made else none) = some history) : given ∧ made = history := by
  split at answered
  · rename_i holds
    exact ⟨holds, Option.some.inj answered⟩
  · cases answered

private theorem of_decided {made decided : Option Bool} {told history : LeafTrace}
    (answered : (if made = decided then some told else none) = some history) : told = history :=
  (of_answered answered).2

/-- Every call of the runtime keeps the leaves in step with its policy. -/
private theorem Told.step {trace : Trace I O} {history after : LeafTrace} {event : Event I O}
    (told : Told tree trace history) (proper : ProperAt components trace event)
    (followed : followCall tree leaves trace history event = some after) :
    Told tree (trace ++ [event]) after := by
  obtain ⟨query, answer⟩ := event
  cases query with
  | policyBegin =>
    obtain ⟨_, free, _⟩ := proper
    obtain ⟨passage, begun⟩ := @beginChunk_begins (leaves trace) trace.length tree [] _ told.proper
      fun below known => (told.owed below known).trans free
    obtain ⟨returned, rfl⟩ := of_answered followed
    refine told.passage passage (fun path known => ?_) fun outcome ends => .inr ⟨?_, ends.1⟩
    · rw [begun path known, returned, owesEnd_snoc, free]
      cases answer <;> rfl
    · rw [returned] at ends
      cases answer with
      | none => rfl
      | some value => exact absurd ends.2 Bool.true_eq_false.mp
  | policyIsComplete itemsRead =>
    obtain rfl := @of_decided _ answer _ _ followed
    have asks := @isComplete_asks (leaves trace) trace.length itemsRead tree [] history
    refine told.passage (asks.passage told.proper) (fun path known => ?_) fun _ never => never.elim
    rw [asks.same, owesEnd_snoc]
    exact told.owed path known
  | policyEnd outcome =>
    obtain ⟨_, rfl⟩ := of_answered followed
    obtain ⟨passage, ended⟩ := @endChunk_ends (leaves trace) trace.length outcome tree [] _
      told.proper fun below known => (told.owed below known).trans proper.1
    refine told.passage passage (fun path known => ?_) fun other same => .inl (same ▸ rfl)
    rw [ended path known, owesEnd_snoc]
    rfl
  | _ =>
    obtain rfl := Option.some.inj followed
    refine ⟨told.proper, fun path known => ?_, told.known, fun other member outcome returned ends =>
      (told.settles other member outcome returned ends).snoc _⟩
    rw [owesEnd_snoc]
    exact told.owed path known

/-- Whatever a run does, its leaves are told of it properly. -/
private theorem told_of_proper {trace : Trace I O} {history : LeafTrace}
    (proper : Throughout (ProperAt components) trace)
    (followed : follow tree leaves trace = some history) : Told tree trace history := by
  induction trace using List.reverseRecOn generalizing history with
  | nil =>
    cases followed
    exact ⟨throughout_nil, fun _ _ => rfl, by simp, by simp⟩
  | append_singleton trace event ih =>
    obtain ⟨earlier, before, called⟩ := follow_snoc followed
    exact (ih proper.of_append before).step (proper trace event [] rfl) called

/-- Behind its policy an attempt stands as it does to its end: it commits no more. -/
structure PolicyOver (components : Components) (trace : Trace I O) : Prop where
  installed : components.hasCompletionPolicy = true
  unowed : owesEnd trace = false
  begun : policyUnbegun trace = false

private theorem PolicyOver.snoc {trace : Trace I O} {event : Event I O}
    (past : PolicyOver components trace) (proper : ProperAt components trace event)
    (within : event.begins = false) :
    PolicyOver components (trace ++ [event]) ∧
      (standingOf (trace ++ [event]) = .closed .committed ↔
        standingOf trace = .closed .committed) := by
  obtain ⟨query, answer⟩ := event
  have kept : ∀ (same : unbegunStep (policyUnbegun trace) ⟨query, answer⟩ = policyUnbegun trace)
      (owes : owesStep (owesEnd trace) ⟨query, answer⟩ = owesEnd trace),
      PolicyOver components (trace ++ [⟨query, answer⟩]) := fun same owes =>
    ⟨past.installed, by rw [owesEnd_snoc, owes, past.unowed],
      by rw [policyUnbegun_snoc, same, past.begun]⟩
  cases query with
  | begin => cases within
  | policyBegin => exact absurd (past.begun.symm.trans proper.2.2.1) Bool.false_ne_true
  | policyEnd outcome => exact absurd (past.unowed.symm.trans proper.1) Bool.false_ne_true
  | commit counts progress componentState slots =>
    exact absurd (past.unowed.symm.trans (proper.2.trans past.installed)) Bool.false_ne_true
  | rollback =>
    have opened : standingOf trace = .opened := proper
    refine ⟨kept rfl rfl, ?_⟩
    rw [standingOf_snoc, opened]
    cases answer <;> simp [standingStep]
  | _ =>
    refine ⟨kept rfl rfl, ?_⟩
    rw [standingOf_snoc]
    exact Iff.rfl

private theorem PolicyOver.append {trace later : Trace I O} (past : PolicyOver components trace)
    (proper : Throughout (ProperAt components) (trace ++ later))
    (within : ∀ event ∈ later, event.begins = false) :
    PolicyOver components (trace ++ later) ∧
      (standingOf (trace ++ later) = .closed .committed ↔
        standingOf trace = .closed .committed) := by
  induction later using List.reverseRecOn with
  | nil =>
    rw [List.append_nil]
    exact ⟨past, Iff.rfl⟩
  | append_singleton later event ih =>
    rw [← List.append_assoc] at proper ⊢
    obtain ⟨still, same⟩ := ih proper.of_append fun other member => within other (by simp [member])
    obtain ⟨past', same'⟩ := still.snoc (proper _ event [] rfl) (within event (by simp))
    exact ⟨past', same'.trans same⟩

/-- An end is owed by a policy that is installed and has begun. -/
private theorem owed_begun {trace : Trace I O} (proper : Throughout (ProperAt components) trace) :
    owesEnd trace = true →
      components.hasCompletionPolicy = true ∧ policyUnbegun trace = false := by
  refine @Throughout.carries _ _ (fun trace => owesEnd trace = true →
    components.hasCompletionPolicy = true ∧ policyUnbegun trace = false) _ proper
    (fun owes => by cases owes) fun before event carried proper owes => ?_
  obtain ⟨query, answer⟩ := event
  rw [owesEnd_snoc] at owes
  rw [policyUnbegun_snoc]
  cases query with
  | begin =>
    have unowed : owesEnd before = false := proper.2.1
    exact absurd (unowed.symm.trans owes) Bool.false_ne_true
  | policyBegin => exact ⟨proper.2.2.2, rfl⟩
  | policyEnd outcome => cases owes
  | _ => exact carried owes

/-- Where a leaf is ended, its attempt has been committed or will not be. -/
private theorem settles_fate {trace : Trace I O} {stamp : Nat} {outcome : ChunkAttemptOutcome}
    (proper : Throughout (ProperAt components) trace) (settles : Settles trace stamp outcome) :
    outcome = .committed ↔ standingOf (attemptUpTo trace stamp) = .closed .committed := by
  obtain ⟨earlier, call, later, rfl, rfl, kind⟩ := settles
  have here := proper earlier call later rfl
  have inside : call.begins = false := by
    rcases kind with ends | ⟨rfl, _⟩
    · obtain ⟨query, answer⟩ := call
      obtain rfl : query = _ := ends
      rfl
    · rfl
  have attempt : attemptUpTo (earlier ++ call :: later) earlier.length =
      (earlier ++ [call]) ++ later.takeWhile fun event => !event.begins := by
    unfold attemptUpTo
    rw [List.take_left, List.drop_left, List.takeWhile_cons, inside]
    simp
  have proper' : Throughout (ProperAt components)
      ((earlier ++ [call]) ++ later.takeWhile fun event => !event.begins) := by
    refine @Throughout.of_append _ _ _ (later.dropWhile fun event => !event.begins) ?_
    rw [List.append_assoc, List.takeWhile_append_dropWhile, List.append_assoc]
    exact proper
  have within : ∀ event ∈ later.takeWhile fun event => !event.begins, event.begins = false :=
    fun event member => by simpa using List.mem_takeWhile_imp member
  rw [attempt]
  rcases kind with ends | ⟨rfl, rfl⟩
  · obtain ⟨query, answer⟩ := call
    obtain rfl : query = _ := ends
    obtain ⟨owed, truthful⟩ := here
    obtain ⟨installed, begun⟩ := owed_begun (proper.of_append) owed
    have past : PolicyOver components (earlier ++ [⟨.policyEnd outcome, answer⟩]) :=
      ⟨installed, owesEnd_snoc _ _, (policyUnbegun_snoc _ _).trans begun⟩
    rw [(past.append proper' within).2, standingOf_snoc]
    exact truthful
  · obtain ⟨opened, unowed, _, installed⟩ := here
    have past : PolicyOver components (earlier ++ [⟨.policyBegin, none⟩]) :=
      ⟨installed, (owesEnd_snoc _ _).trans unowed, policyUnbegun_snoc _ _⟩
    rw [(past.append proper' within).2, standingOf_snoc]
    change _ ↔ standingOf earlier = _
    rw [opened]
    simp

/-- What a leaf is told in a run: it begins when it owes no end, is ended when it owes one, as
committed exactly when its attempt commits, and owes none once the run has reported. -/
structure Paired (trace : Trace I O) (reported : Prop) (history : LeafTrace) (path : LeafPath) :
    Prop where
  begins : ∀ earlier event later returned, history = earlier ++ event :: later →
    event.path = path → event.call = .begins returned → leafOwes path earlier = false
  ends : ∀ earlier event later outcome returned, history = earlier ++ event :: later →
    event.path = path → event.call = .ends outcome returned → leafOwes path earlier = true ∧
      (outcome = .committed ↔
        standingOf (attemptUpTo trace event.stamp) = .closed .committed)
  settled : reported → leafOwes path history = false

/-- Over any run of the chunk loop whose policy is a tree of composites, whichever calls to the
leaves panic, each leaf that has begun is ended once, as its attempt ended. -/
theorem composite_pairs (env : Environment I O) (components : Components)
    {policy : Option (FaultPolicy × ChunkDeliveryMode)}
    (typed : ∀ installed ∈ policy, installed.1.skipLimit < u64Limit) {inherited : SkipCounts}
    (fits : inherited.total < u64Limit) (retries : RetryCounts)
    (noRollbacks fuel rounds : Nat) (checkpointDigest : Chunk.Digest) (tree : PolicyTree)
    (leaves : Trace I O → Leaves) {history : LeafTrace}
    (followed : follow tree leaves (run env (components.under policy) fuel rounds checkpointDigest
      (.inheriting inherited retries noRollbacks)).2.trace = some history) (path : LeafPath) :
    Paired (run env (components.under policy) fuel rounds checkpointDigest
        (.inheriting inherited retries noRollbacks)).2.trace
      ((run env (components.under policy) fuel rounds checkpointDigest
        (.inheriting inherited retries noRollbacks)).1.isSome = true) history path := by
  have finished := run_under_finishes env components typed fits retries noRollbacks fuel rounds
    checkpointDigest
  generalize run env (components.under policy) fuel rounds checkpointDigest
    (.inheriting inherited retries noRollbacks) = result at finished followed
  have told := told_of_proper finished.underway.proper followed
  refine ⟨fun earlier event later returned split here begins => ?_,
    fun earlier event later outcome returned split here ends => ?_, fun reported => ?_⟩
  · have proper := told.proper earlier event later split
    rw [LeafEvent.ProperAt, begins, here] at proper
    exact proper
  · have proper := told.proper earlier event later split
    rw [LeafEvent.ProperAt, ends, here] at proper
    have member : event ∈ history := by simp [split]
    exact ⟨proper, settles_fate finished.underway.proper
      (told.settles event member outcome returned ends)⟩
  · obtain ⟨report, made⟩ := Option.isSome_iff_exists.mp reported
    rw [made] at finished
    by_cases known : path ∈ tree.leafPaths []
    · exact (told.owed path known).trans finished.paid
    · exact leafOwes_absent fun event member here => known (here ▸ told.known event member)

end Runs

section Nested

/-- One policy, and two that have to agree. -/
def nestedTree : PolicyTree := .composite .any [.leaf, .composite .all [.leaf, .leaf]]

/-- The innermost of the leaves panics when it begins again. -/
def panickingLeaves : Leaves where
  begins told path := path ≠ [1, 1] || told.all (·.path ≠ [1, 1])
  decides _ _ _ := some false
  ends _ _ _ := true

/-- A reader without an end, under a policy that begins once. -/
def panickingPolicy : Environment Nat Nat := fun trace query =>
  match query with
  | .policyBegin => if trace.any (·.query matches .policyBegin) then none else some ()
  | query => scripted (fun call => .completed (.item call))
      (fun _ _ input => .completed (.item input)) trace query

def panickingRun : Option ChunkExecutionReport × Exec Nat Nat :=
  run panickingPolicy
    (Components.under ⟨2, none, [], true, true, 0, 0, pairComponents.retryKey⟩ none) 5 5 []
    (.inheriting .zero .zero 0)

def LeafEvent.ended (event : LeafEvent) : Option (LeafPath × ChunkAttemptOutcome) :=
  match event.call with
  | .ends outcome _ => some (event.path, outcome)
  | _ => none

/-- The leaves of the chunk that is committed are ended so, and behind the panic of the next
begin the two leaves in front are ended as unknown. -/
theorem panicking_member_pairs :
    ∃ history, follow nestedTree (fun _ => panickingLeaves) panickingRun.2.trace = some history ∧
      history.filterMap LeafEvent.ended = [([0], .committed), ([0, 1], .committed),
        ([1, 1], .committed), ([0, 1], .unknown), ([0], .unknown)] ∧
      panickingRun.1.map (·.outcome) = some (.failed .completionPolicyPanic) ∧
      ∀ path, Paired panickingRun.2.trace (panickingRun.1.isSome = true) history path := by
  have told : (follow nestedTree (fun _ => panickingLeaves) panickingRun.2.trace).map
      (·.filterMap LeafEvent.ended) = some [([0], .committed), ([0, 1], .committed),
        ([1, 1], .committed), ([0, 1], .unknown), ([0], .unknown)] := by decide +kernel
  have failed : panickingRun.1.map (·.outcome) = some (.failed .completionPolicyPanic) := by
    decide +kernel
  obtain ⟨history, followed, ended⟩ := Option.map_eq_some_iff.mp told
  refine ⟨history, followed, ended, failed, fun path => ?_⟩
  -- unfolded first, so that the run itself is not evaluated to compare it
  unfold panickingRun at followed ⊢
  have fits : SkipCounts.zero.total < u64Limit := by
    simp [SkipCounts.total, SkipCounts.zero, u64Limit]
  exact composite_pairs panickingPolicy _ (by simp) fits .zero 0 5 5 [] nestedTree _ followed path

end Nested

end OxideBatch.Completion
