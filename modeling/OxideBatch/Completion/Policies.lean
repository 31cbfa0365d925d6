import OxideBatch.Completion.Adaptive

/-! Trees of completion policies: their construction, the decisions they take attempt by
attempt, and the fingerprint of their configuration. -/

namespace OxideBatch.Completion

open OxideBatch.Core OxideBatch.Chunk

inductive CompositeMode where
  | any
  | all
  deriving DecidableEq, Repr

/-- The derived `Debug` text. -/
def CompositeMode.debug : CompositeMode → String
  | .any => "Any"
  | .all => "All"

/-- `MAX_COMPOSITE_MEMBERS`. -/
def maxCompositeMembers : Nat := 32

/-- `MAX_COMPOSITE_DEPTH`. -/
def maxCompositeDepth : Nat := 8

inductive CompletionPolicyError where
  | invalidTimeThreshold
  | emptyComposite
  | tooManyMembers (max : Nat)
  | compositeTooDeep (max : Nat)
  | invalidAdaptiveBounds
  deriving DecidableEq

/-- A policy with what it has observed: a time policy the start of its attempt, an adaptive
policy its interior. -/
inductive CompletionPolicy where
  | itemCount (size : ChunkSize)
  | time (threshold : ChunkTimeThreshold) (started : Option Int)
  | adaptive (policy : AdaptiveCompletionPolicy) (state : AdaptiveInterior)
  | composite (mode : CompositeMode) (members : List CompletionPolicy)

/-- What the clock of each leaf shows, by the way to it through the members; a clock that
panics shows nothing. -/
abbrev Clocks := List Nat → Option Int

/-- The clocks of one member. -/
def Clocks.member (clocks : Clocks) (index : Nat) : Clocks := fun path => clocks (index :: path)

namespace CompletionPolicy

mutual

/-- `composite_depth`. -/
def compositeDepth : CompletionPolicy → Nat
  | .composite _ members => 1 + deepestMember members
  | _ => 0

def deepestMember : List CompletionPolicy → Nat
  | [] => 0
  | member :: members => max member.compositeDepth (deepestMember members)

end

/-- `CompositeCompletionPolicy::new`. -/
def newComposite (mode : CompositeMode) (members : List CompletionPolicy) :
    Except CompletionPolicyError CompletionPolicy :=
  if members.isEmpty then .error .emptyComposite
  else if maxCompositeMembers < members.length then .error (.tooManyMembers maxCompositeMembers)
  else if maxCompositeDepth < 1 + deepestMember members then
    .error (.compositeTooDeep maxCompositeDepth)
  else .ok (.composite mode members)

/-- A tree as its constructors leave it. -/
inductive Built : CompletionPolicy → Prop
  | itemCount (size : ChunkSize) : Built (.itemCount size)
  | time (threshold : ChunkTimeThreshold) : Built (.time threshold none)
  | adaptive (policy : AdaptiveCompletionPolicy) : Built (.adaptive policy policy.new)
  | composite {mode : CompositeMode} {members : List CompletionPolicy} {tree : CompletionPolicy}
      (built : ∀ member ∈ members, Built member) (made : newComposite mode members = .ok tree) :
      Built tree

mutual

def endChunk (outcome : ChunkAttemptOutcome) : CompletionPolicy → CompletionPolicy
  | .itemCount size => .itemCount size
  | .time threshold started => .time threshold started
  | .adaptive policy state => .adaptive policy (AdaptiveCompletionPolicy.endChunk outcome state)
  | .composite mode members => .composite mode (endMembers outcome members)

def endMembers (outcome : ChunkAttemptOutcome) : List CompletionPolicy → List CompletionPolicy
  | [] => []
  | member :: members => member.endChunk outcome :: endMembers outcome members

end

mutual

/-- `begin_chunk`, and whether it returns: a panicking clock leaves an adaptive policy
without a candidate. -/
def beginChunk (clocks : Clocks) : CompletionPolicy → Bool × CompletionPolicy
  | .itemCount size => (true, .itemCount size)
  | .time threshold started =>
    match clocks [] with
    | some now => (true, .time threshold (some now))
    | none => (false, .time threshold started)
  | .adaptive policy state =>
    match clocks [] with
    | some now => (true, .adaptive policy (AdaptiveCompletionPolicy.beginChunk now state))
    | none => (false, .adaptive policy { state with pending := none })
  | .composite mode members =>
    let begun := beginMembers clocks 0 members
    (begun.1, .composite mode begun.2)

/-- Behind a panic no later member begins, and those that have begun are ended. -/
def beginMembers (clocks : Clocks) : Nat → List CompletionPolicy → Bool × List CompletionPolicy
  | _, [] => (true, [])
  | index, member :: members =>
    match member.beginChunk (clocks.member index) with
    | (false, member) => (false, member :: members)
    | (true, begun) =>
      match beginMembers clocks (index + 1) members with
      | (true, members) => (true, begun :: members)
      | (false, members) => (false, begun.endChunk .unknown :: members)

end

mutual

/-- `is_complete`; nothing where a clock panics. -/
def isComplete (clocks : Clocks) (itemsRead : Nat) : CompletionPolicy → Option Bool
  | .itemCount size => some (decide (size.get ≤ itemsRead))
  | .time _ none => some false
  | .time threshold (some started) =>
    (clocks []).map fun now => decide (threshold.get ≤ (now - started).toNat)
  | .adaptive _ state => some (AdaptiveCompletionPolicy.isComplete itemsRead state)
  | .composite mode members => decideMembers clocks itemsRead mode 0 members

/-- `any` and `all` over the members: the first that decides ends the pass. -/
def decideMembers (clocks : Clocks) (itemsRead : Nat) (mode : CompositeMode) :
    Nat → List CompletionPolicy → Option Bool
  | _, [] => some (decide (mode = .all))
  | index, member :: members =>
    (member.isComplete (clocks.member index) itemsRead).bind fun answer =>
      if answer = decide (mode = .any) then some answer
      else decideMembers clocks itemsRead mode (index + 1) members

end

mutual

/-- Runs one adaptive policy of the tree through its stream. -/
def onStream (change : AdaptiveCompletionPolicy → AdaptiveInterior → AdaptiveInterior) :
    List Nat → CompletionPolicy → CompletionPolicy
  | [], .adaptive policy state => .adaptive policy (change policy state)
  | index :: path, .composite mode members => .composite mode (onMember change path index members)
  | _, policy => policy

def onMember (change : AdaptiveCompletionPolicy → AdaptiveInterior → AdaptiveInterior)
    (path : List Nat) : Nat → List CompletionPolicy → List CompletionPolicy
  | _, [] => []
  | 0, member :: members => member.onStream change path :: members
  | index + 1, member :: members => member :: onMember change path index members

end

section Fingerprint

mutual

/-- `fingerprint`. -/
def fingerprint : CompletionPolicy → String
  | .itemCount size => "count/" ++ toString size.get
  | .time threshold _ => "time/" ++ toString threshold.get
  | .adaptive policy _ =>
    "adaptive/" ++ toString policy.bounds.min.get ++ "/" ++ toString policy.bounds.max.get ++ "/" ++
      toString policy.targetDuration.get
  | .composite mode members =>
    match memberFingerprints members with
    | none => ""
    | some members => "composite/" ++ mode.debug ++ "/[" ++ members ++ "]"

/-- Every member behind the number of its bytes; nothing once a member has no fingerprint. -/
def memberFingerprints : List CompletionPolicy → Option String
  | [] => some ""
  | member :: members =>
    if member.fingerprint = "" then none
    else (memberFingerprints members).map fun others =>
      toString member.fingerprint.utf8ByteSize ++ ":" ++ member.fingerprint ++ others

end

end Fingerprint

section Runs

variable {Checksum : Type} (format : StateFormat Checksum)

/-- What a tree and its streams can be asked between two restarts. -/
inductive Observation (Checksum : Type) where
  | openStream (path : List Nat) (inherited : Option (Core.ComponentStateEnvelope Checksum))
  | beginChunk (clocks : Clocks)
  | isComplete (clocks : Clocks) (itemsRead : Nat)
  | update (path : List Nat) (now : Int)
  | endChunk (outcome : ChunkAttemptOutcome)

/-- The tree behind one observation. -/
def step (tree : CompletionPolicy) : Observation Checksum → CompletionPolicy
  | .openStream path inherited =>
    tree.onStream (fun _ state =>
      (AdaptiveCompletionPolicy.openStream format inherited state).2) path
  | .beginChunk clocks => (tree.beginChunk clocks).2
  | .isComplete _ _ => tree
  | .update path now =>
    tree.onStream (fun policy state => (policy.update format now state).2) path
  | .endChunk outcome => tree.endChunk outcome

/-- What one observation shows: whether the chunk is complete, or whether it begins. -/
def answer (tree : CompletionPolicy) : Observation Checksum → Option Bool
  | .isComplete clocks itemsRead => tree.isComplete clocks itemsRead
  | .beginChunk clocks => some (tree.beginChunk clocks).1
  | _ => none

/-- Everything a run of observations shows. -/
def answers : CompletionPolicy → List (Observation Checksum) → List (Option Bool)
  | _, [] => []
  | tree, observation :: observations =>
    tree.answer observation :: answers (tree.step format observation) observations

end Runs

end CompletionPolicy

end OxideBatch.Completion
