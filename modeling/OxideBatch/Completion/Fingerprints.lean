import OxideBatch.Completion.Policies
import OxideBatch.Lib.Legible

/-! The fingerprint of a tree of completion policies tells its configuration, and the
configuration decides every answer of the tree. -/

namespace OxideBatch.Completion

open OxideBatch.Core OxideBatch.Chunk OxideBatch.Lib

/-- What a tree is configured with, in its shape and order: everything but the identities its
adaptive policies keep their state under. -/
inductive Configuration where
  | itemCount (size : ChunkSize)
  | time (threshold : ChunkTimeThreshold)
  | adaptive (bounds : AdaptiveBounds) (targetDuration : ChunkTimeThreshold)
  | composite (mode : CompositeMode) (members : List Configuration)

namespace CompletionPolicy

mutual

def configuration : CompletionPolicy → Configuration
  | .itemCount size => .itemCount size
  | .time threshold _ => .time threshold
  | .adaptive policy _ => .adaptive policy.bounds policy.targetDuration
  | .composite mode members => .composite mode (configurations members)

def configurations : List CompletionPolicy → List Configuration
  | [] => []
  | member :: members => member.configuration :: configurations members

end

section Fingerprints

/-- The member part of a composite's fingerprint. -/
def framed : List CompletionPolicy → String
  | [] => ""
  | member :: members =>
    toString member.fingerprint.utf8ByteSize ++ ":" ++ member.fingerprint ++ framed members

mutual

/-- No policy of the module has an empty fingerprint. -/
private theorem fingerprint_ne_empty : ∀ tree : CompletionPolicy, tree.fingerprint ≠ ""
  | .itemCount size => by simp [fingerprint]
  | .time threshold started => by simp [fingerprint]
  | .adaptive policy state => by simp [fingerprint]
  | .composite mode members => by simp [fingerprint, memberFingerprints_framed members]

private theorem memberFingerprints_framed : ∀ members : List CompletionPolicy,
    memberFingerprints members = some (framed members)
  | [] => rfl
  | member :: members => by
    rw [memberFingerprints, if_neg (fingerprint_ne_empty member),
      memberFingerprints_framed members]
    rfl

end

/-- The word a fingerprint begins with. -/
def kind : CompletionPolicy → List Char
  | .itemCount _ => ['c', 'o', 'u', 'n', 't', '/']
  | .time _ _ => ['t', 'i', 'm', 'e', '/']
  | .adaptive _ _ => ['a', 'd', 'a', 'p', 't', 'i', 'v', 'e', '/']
  | .composite _ _ => ['c', 'o', 'm', 'p', 'o', 's', 'i', 't', 'e', '/']

/-- What a fingerprint holds behind its word. -/
def detail : CompletionPolicy → List Char
  | .itemCount size => (toString size.get).toList
  | .time threshold _ => (toString threshold.get).toList
  | .adaptive policy _ =>
    (toString policy.bounds.min.get).toList ++ '/' ::
      ((toString policy.bounds.max.get).toList ++ '/' ::
        (toString policy.targetDuration.get).toList)
  | .composite mode members =>
    mode.debug.toList ++ '/' :: '[' :: ((framed members).toList ++ [']'])

private theorem toList_fingerprint (tree : CompletionPolicy) :
    tree.fingerprint.toList = tree.kind ++ tree.detail := by
  cases tree with
  | itemCount size => simp [fingerprint, kind, detail]
  | time threshold started => simp [fingerprint, kind, detail]
  | adaptive policy state => simp [fingerprint, kind, detail]
  | composite mode members => simp [fingerprint, memberFingerprints_framed, kind, detail]

private theorem toList_framed (member : CompletionPolicy) (members : List CompletionPolicy) :
    (framed (member :: members)).toList = (toString member.fingerprint.utf8ByteSize).toList ++
      ':' :: (member.fingerprint.toList ++ (framed members).toList) := by
  simp [framed]

private theorem debug_inj {left right : CompositeMode} {rest rest' : List Char}
    (same : left.debug.toList ++ rest = right.debug.toList ++ rest') :
    left = right ∧ rest = rest' := by
  cases left <;> cases right <;> simp_all [CompositeMode.debug]

private theorem size_inj {left right : ChunkSize} (same : left.get = right.get) : left = right := by
  cases left
  cases right
  cases same
  rfl

private theorem threshold_inj {left right : ChunkTimeThreshold} (same : left.get = right.get) :
    left = right := by
  cases left
  cases right
  cases same
  rfl

private theorem bounds_inj {left right : AdaptiveBounds} (least : left.min = right.min)
    (most : left.max = right.max) : left = right := by
  cases left
  cases right
  cases least
  cases most
  rfl

private theorem adaptive_detail_inj {left right : AdaptiveCompletionPolicy}
    {state state' : AdaptiveInterior}
    (same : (adaptive left state).detail = (adaptive right state').detail) :
    left.bounds = right.bounds ∧ left.targetDuration = right.targetDuration := by
  obtain ⟨least, behind⟩ := decimal_mark_inj (by decide) same
  obtain ⟨most, durations⟩ := decimal_mark_inj (by decide) behind
  exact ⟨bounds_inj (size_inj least) (size_inj most), threshold_inj (decimal_inj durations)⟩

mutual

/-- Equal fingerprints come of equal configurations. -/
private theorem configuration_of_fingerprint : ∀ left right : CompletionPolicy,
    left.fingerprint = right.fingerprint → left.configuration = right.configuration
  | .itemCount size, right => by
    intro same
    have chars := congrArg String.toList same
    rw [toList_fingerprint, toList_fingerprint] at chars
    cases right with
    | itemCount size' =>
      rw [configuration, configuration, size_inj (decimal_inj (List.append_cancel_left chars))]
    | time _ _ | adaptive _ _ | composite _ _ => simp [kind] at chars
  | .time threshold started, right => by
    intro same
    have chars := congrArg String.toList same
    rw [toList_fingerprint, toList_fingerprint] at chars
    cases right with
    | time threshold' started' =>
      rw [configuration, configuration,
        threshold_inj (decimal_inj (List.append_cancel_left chars))]
    | itemCount _ | adaptive _ _ | composite _ _ => simp [kind] at chars
  | .adaptive policy state, right => by
    intro same
    have chars := congrArg String.toList same
    rw [toList_fingerprint, toList_fingerprint] at chars
    cases right with
    | adaptive policy' state' =>
      obtain ⟨bounds, durations⟩ := adaptive_detail_inj (List.append_cancel_left chars)
      rw [configuration, configuration, bounds, durations]
    | itemCount _ | time _ _ | composite _ _ => simp [kind] at chars
  | .composite mode members, right => by
    intro same
    have chars := congrArg String.toList same
    rw [toList_fingerprint, toList_fingerprint] at chars
    cases right with
    | composite mode' members' =>
      obtain ⟨modes, behind⟩ := debug_inj (List.append_cancel_left chars)
      have bodies := (List.cons.inj (List.cons.inj behind).2).2
      have texts := String.toList_inj.mp (List.append_cancel_right bodies)
      rw [configuration, configuration, modes, configurations_of_framed members members' texts]
    | itemCount _ | time _ _ | adaptive _ _ => simp [kind] at chars

private theorem configurations_of_framed : ∀ left right : List CompletionPolicy,
    framed left = framed right → configurations left = configurations right
  | [], right => by
    intro same
    cases right with
    | nil => rfl
    | cons member members =>
      have chars := congrArg String.toList same
      rw [toList_framed] at chars
      simp [framed] at chars
  | member :: members, right => by
    intro same
    have chars := congrArg String.toList same
    rw [toList_framed] at chars
    cases right with
    | nil => simp [framed] at chars
    | cons member' members' =>
      rw [toList_framed] at chars
      obtain ⟨sizes, behind⟩ := decimal_mark_inj (by decide) chars
      obtain ⟨heads, tails⟩ := text_inj sizes behind
      rw [configurations, configurations, configuration_of_fingerprint member member' heads,
        configurations_of_framed members members' (String.toList_inj.mp tails)]

end

end Fingerprints

section Names

variable (identity : ComponentStreamIdentity)

mutual

/-- A tree whose adaptive policies all keep their state under one identity. -/
def named : CompletionPolicy → CompletionPolicy
  | .itemCount size => .itemCount size
  | .time threshold started => .time threshold started
  | .adaptive policy state => .adaptive { policy with identity } state
  | .composite mode members => .composite mode (namedMembers members)

def namedMembers : List CompletionPolicy → List CompletionPolicy
  | [] => []
  | member :: members => member.named :: namedMembers members

end

mutual

private theorem endChunk_named (outcome : ChunkAttemptOutcome) : ∀ tree : CompletionPolicy,
    (tree.named identity).endChunk outcome = (tree.endChunk outcome).named identity
  | .itemCount size => rfl
  | .time threshold started => rfl
  | .adaptive policy state => rfl
  | .composite mode members => by
    simp only [named, endChunk, endMembers_named outcome members]

private theorem endMembers_named (outcome : ChunkAttemptOutcome) : ∀ members :
    List CompletionPolicy,
    endMembers outcome (namedMembers identity members) =
      namedMembers identity (endMembers outcome members)
  | [] => rfl
  | member :: members => by
    simp only [namedMembers, endMembers, endChunk_named outcome member,
      endMembers_named outcome members]

end

mutual

private theorem beginChunk_named (clocks : Clocks) : ∀ tree : CompletionPolicy,
    (tree.named identity).beginChunk clocks =
      ((tree.beginChunk clocks).1, (tree.beginChunk clocks).2.named identity)
  | .itemCount size => rfl
  | .time threshold started => by
    simp only [named, beginChunk]
    split <;> rfl
  | .adaptive policy state => by
    simp only [named, beginChunk]
    split <;> rfl
  | .composite mode members => by
    simp only [named, beginChunk, beginMembers_named clocks 0 members]

private theorem beginMembers_named (clocks : Clocks) : ∀ (index : Nat)
    (members : List CompletionPolicy),
    beginMembers clocks index (namedMembers identity members) =
      ((beginMembers clocks index members).1,
        namedMembers identity (beginMembers clocks index members).2)
  | _, [] => rfl
  | index, member :: members => by
    simp only [namedMembers, beginMembers, beginChunk_named (clocks.member index) member,
      beginMembers_named clocks (index + 1) members]
    rcases member.beginChunk (clocks.member index) with ⟨_ | _, begun⟩
    · rfl
    · rcases beginMembers clocks (index + 1) members with ⟨_ | _, others⟩
      · simp only [namedMembers, endChunk_named]
      · rfl

end

mutual

private theorem isComplete_named (clocks : Clocks) (itemsRead : Nat) : ∀ tree : CompletionPolicy,
    (tree.named identity).isComplete clocks itemsRead = tree.isComplete clocks itemsRead
  | .itemCount size => rfl
  | .time threshold started => rfl
  | .adaptive policy state => rfl
  | .composite mode members => by
    simp only [named, isComplete, decideMembers_named clocks itemsRead mode 0 members]

private theorem decideMembers_named (clocks : Clocks) (itemsRead : Nat) (mode : CompositeMode) :
    ∀ (index : Nat) (members : List CompletionPolicy),
      decideMembers clocks itemsRead mode index (namedMembers identity members) =
        decideMembers clocks itemsRead mode index members
  | _, [] => rfl
  | index, member :: members => by
    simp only [namedMembers, decideMembers,
      isComplete_named (clocks.member index) itemsRead member,
      decideMembers_named clocks itemsRead mode (index + 1) members]

end

section Streams

variable {change : AdaptiveCompletionPolicy → AdaptiveInterior → AdaptiveInterior}

mutual

private theorem onStream_named
    (blind : ∀ policy state, change { policy with identity } state = change policy state) :
    ∀ (path : List Nat) (tree : CompletionPolicy),
      (tree.named identity).onStream change path = (tree.onStream change path).named identity
  | [], .itemCount size => rfl
  | [], .time threshold started => rfl
  | [], .adaptive policy state => by simp only [named, onStream, blind]
  | [], .composite mode members => rfl
  | index :: path, .itemCount size => rfl
  | index :: path, .time threshold started => rfl
  | index :: path, .adaptive policy state => rfl
  | index :: path, .composite mode members => by
    simp only [named, onStream, onMember_named blind path index members]

private theorem onMember_named
    (blind : ∀ policy state, change { policy with identity } state = change policy state) :
    ∀ (path : List Nat) (index : Nat) (members : List CompletionPolicy),
      onMember change path index (namedMembers identity members) =
        namedMembers identity (onMember change path index members)
  | _, _, [] => by simp only [namedMembers, onMember]
  | path, 0, member :: members => by
    simp only [namedMembers, onMember, onStream_named blind path member]
  | path, index + 1, member :: members => by
    simp only [namedMembers, onMember, onMember_named blind path index members]

end

end Streams

variable {Checksum : Type} (format : StateFormat Checksum)

private theorem step_named (tree : CompletionPolicy) (observation : Observation Checksum) :
    (tree.named identity).step format observation =
      (tree.step format observation).named identity := by
  cases observation with
  | openStream path inherited => exact onStream_named identity (fun _ _ => rfl) path tree
  | beginChunk clocks => rw [step, step, beginChunk_named]
  | isComplete clocks itemsRead => rfl
  | update path now => exact onStream_named identity (fun _ _ => rfl) path tree
  | endChunk outcome => exact endChunk_named identity outcome tree

private theorem answer_named (tree : CompletionPolicy) (observation : Observation Checksum) :
    (tree.named identity).answer observation = tree.answer observation := by
  cases observation with
  | beginChunk clocks => rw [answer, answer, beginChunk_named]
  | isComplete clocks itemsRead => exact isComplete_named identity clocks itemsRead tree
  | openStream _ _ | update _ _ | endChunk _ => rfl

/-- What a run shows does not depend on where the adaptive policies keep their state. -/
private theorem answers_named (tree : CompletionPolicy)
    (observations : List (Observation Checksum)) :
    (tree.named identity).answers format observations = tree.answers format observations := by
  induction observations generalizing tree with
  | nil => rfl
  | cons observation observations ih =>
    rw [answers, answers, answer_named, step_named, ih]

end Names

section Construction

private theorem newComposite_ok {mode : CompositeMode} {members : List CompletionPolicy}
    {tree : CompletionPolicy} (made : newComposite mode members = .ok tree) :
    tree = .composite mode members := by
  unfold newComposite at made
  split at made
  · cases made
  · split at made
    · cases made
    · split at made
      · cases made
      · cases made
        rfl

theorem Built.state {policy : AdaptiveCompletionPolicy} {state : AdaptiveInterior}
    (built : Built (.adaptive policy state)) : state = policy.new := by
  cases built with
  | adaptive => rfl
  | composite _ made => cases newComposite_ok made

theorem Built.started {threshold : ChunkTimeThreshold} {started : Option Int}
    (built : Built (.time threshold started)) : started = none := by
  cases built with
  | time => rfl
  | composite _ made => cases newComposite_ok made

theorem Built.members {mode : CompositeMode} {members : List CompletionPolicy}
    (built : Built (.composite mode members)) : ∀ member ∈ members, Built member := by
  cases built with
  | composite within made =>
    cases newComposite_ok made
    exact within

variable (identity : ComponentStreamIdentity)

mutual

/-- Two trees built from one configuration differ in the identities of their adaptive
policies only. -/
private theorem named_of_configuration : ∀ left right : CompletionPolicy, Built left → Built right →
    left.configuration = right.configuration → left.named identity = right.named identity
  | .itemCount size, right => by
    intro built built' same
    cases right with
    | itemCount size' =>
      cases same
      rfl
    | time _ _ | adaptive _ _ | composite _ _ => cases same
  | .time threshold started, right => by
    intro built built' same
    cases right with
    | time threshold' started' =>
      cases same
      rw [built.started, built'.started]
    | itemCount _ | adaptive _ _ | composite _ _ => cases same
  | .adaptive policy state, right => by
    intro built built' same
    cases right with
    | adaptive policy' state' =>
      obtain ⟨bounds, durations⟩ := Configuration.adaptive.inj same
      rw [built.state, built'.state, named, named]
      simp only [AdaptiveCompletionPolicy.new, bounds, durations]
    | itemCount _ | time _ _ | composite _ _ => cases same
  | .composite mode members, right => by
    intro built built' same
    cases right with
    | composite mode' members' =>
      obtain ⟨modes, parts⟩ := Configuration.composite.inj same
      rw [named, named, modes, namedMembers_of_configurations members members' built.members
        built'.members parts]
    | itemCount _ | time _ _ | adaptive _ _ => cases same

private theorem namedMembers_of_configurations : ∀ left right : List CompletionPolicy,
    (∀ member ∈ left, Built member) → (∀ member ∈ right, Built member) →
    configurations left = configurations right →
    namedMembers identity left = namedMembers identity right
  | [], right => by
    intro _ _ same
    cases right with
    | nil => rfl
    | cons member members => cases same
  | member :: members, right => by
    intro built built' same
    cases right with
    | nil => cases same
    | cons member' members' =>
      obtain ⟨heads, tails⟩ := List.cons.inj same
      obtain ⟨first, others⟩ := List.forall_mem_cons.mp built
      obtain ⟨first', others'⟩ := List.forall_mem_cons.mp built'
      rw [namedMembers, namedMembers, named_of_configuration member member' first first' heads,
        namedMembers_of_configurations members members' others others' tails]

end

end Construction

/-- Trees with one fingerprint have the same shape, modes, order, counts, bounds and
durations, and whatever both observe, they answer alike. -/
theorem fingerprint_tells_policy {Checksum : Type} (format : StateFormat Checksum)
    {left right : CompletionPolicy} (built : Built left) (built' : Built right)
    (same : left.fingerprint = right.fingerprint) :
    left.configuration = right.configuration ∧
      ∀ observations : List (Observation Checksum),
        left.answers format observations = right.answers format observations := by
  have configured := configuration_of_fingerprint left right same
  refine ⟨configured, fun observations => ?_⟩
  have alike := named_of_configuration ⟨"completion", by decide⟩ left right built built' configured
  rw [← answers_named ⟨"completion", by decide⟩ format left, alike, answers_named]

/-- An adaptive policy next to a count of three, its state under the given identity. -/
def pairedMembers (identity : ComponentStreamIdentity) : List CompletionPolicy :=
  [.adaptive { AdaptiveCompletionPolicy.smallPolicy with identity }
      AdaptiveCompletionPolicy.smallPolicy.new,
    .itemCount 3]

private theorem built_pairedMembers (identity : ComponentStreamIdentity) :
    Built (.composite .all (pairedMembers identity)) := by
  have built : ∀ member ∈ pairedMembers identity, Built member := by
    intro member within
    simp only [pairedMembers, List.mem_cons, List.not_mem_nil, or_false] at within
    rcases within with rfl | rfl
    · exact .adaptive { AdaptiveCompletionPolicy.smallPolicy with identity }
    · exact .itemCount _
  exact .composite built rfl

/-- The adaptive part of either tree waits for two items, the count for a third. -/
theorem paired_policies_alike :
    let observations : List (Observation (List UInt8)) :=
      [.beginChunk fun _ => some 0, .isComplete (fun _ => some 5) 2,
        .isComplete (fun _ => some 9) 3]
    let left := composite .all (pairedMembers ⟨"left", by decide⟩)
    let right := composite .all (pairedMembers ⟨"right", by decide⟩)
    left.answers AdaptiveCompletionPolicy.decisionSerde observations =
        [some true, some false, some true] ∧
      left.answers AdaptiveCompletionPolicy.decisionSerde observations =
        right.answers AdaptiveCompletionPolicy.decisionSerde observations := by
  intro observations left right
  have told := fingerprint_tells_policy AdaptiveCompletionPolicy.decisionSerde
    (built_pairedMembers ⟨"left", by decide⟩) (built_pairedMembers ⟨"right", by decide⟩) rfl
  exact ⟨rfl, told.2 observations⟩

end CompletionPolicy

end OxideBatch.Completion
