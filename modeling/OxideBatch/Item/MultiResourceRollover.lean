import OxideBatch.Item.MultiResourceWriter

/-! A writer over resources, event by event: each batch lies whole in one resource, the policy
alone says in which, and every resource that was left is filled. -/

namespace OxideBatch.Item.MultiResource.Writer

open OxideBatch.Core OxideBatch.Lib Triple Handover Restarts

variable {Batch : Type}

section Filled

/-- Where a fixed number of batches goes to each resource, one that was left holds as many. -/
private theorem countP_filled {written : List (Nat × Batch)} {maxBatches last : Nat}
    (counts : 0 < maxBatches)
    (lies : ∀ number resource batch, written[number]? = some (resource, batch) →
      resource = min (number / maxBatches) last) {left later : Nat} (before : left < later)
    (member : ∃ batch, (later, batch) ∈ written) :
    written.countP (fun entry => decide (entry.1 = left)) = maxBatches := by
  obtain ⟨batch, member⟩ := member
  obtain ⟨number, found⟩ := List.mem_iff_getElem?.mp member
  have here := lies number later batch found
  have within := (List.getElem?_eq_some_iff.mp found).1
  have reached : (left + 1) * maxBatches ≤ number :=
    (Nat.le_div_iff_mul_le counts).mp (by omega)
  rw [Nat.succ_mul] at reached
  have parts : written = written.take (left * maxBatches) ++
      ((written.drop (left * maxBatches)).take maxBatches ++
        (written.drop (left * maxBatches)).drop maxBatches) := by
    rw [List.take_append_drop, List.take_append_drop]
  have front : (written.take (left * maxBatches)).countP (fun entry => decide (entry.1 = left)) =
      0 := by
    refine List.countP_eq_zero.mpr fun entry among => ?_
    obtain ⟨place, known⟩ := List.mem_iff_getElem?.mp among
    rw [List.getElem?_take] at known
    split at known
    · rename_i early
      have resource := lies place entry.1 entry.2 known
      have below : place / maxBatches < left := (Nat.div_lt_iff_lt_mul counts).mpr early
      simp only [decide_eq_true_eq]
      omega
    · cases known
  have back : ((written.drop (left * maxBatches)).drop maxBatches).countP
      (fun entry => decide (entry.1 = left)) = 0 := by
    refine List.countP_eq_zero.mpr fun entry among => ?_
    obtain ⟨place, known⟩ := List.mem_iff_getElem?.mp among
    rw [List.getElem?_drop, List.getElem?_drop] at known
    have resource := lies _ entry.1 entry.2 known
    have beyond : left + 1 ≤ (left * maxBatches + (maxBatches + place)) / maxBatches :=
      (Nat.le_div_iff_mul_le counts).mpr (by rw [Nat.succ_mul]; omega)
    simp only [decide_eq_true_eq]
    omega
  have middle : ((written.drop (left * maxBatches)).take maxBatches).countP
      (fun entry => decide (entry.1 = left)) = maxBatches := by
    have whole : ((written.drop (left * maxBatches)).take maxBatches).length = maxBatches := by
      rw [List.length_take, List.length_drop]
      omega
    refine (List.countP_eq_length.mpr fun entry among => ?_).trans whole
    obtain ⟨place, known⟩ := List.mem_iff_getElem?.mp among
    rw [List.getElem?_take] at known
    split at known
    · rename_i inside
      rw [List.getElem?_drop] at known
      have resource := lies _ entry.1 entry.2 known
      have same : (left * maxBatches + place) / maxBatches = left := by
        rw [Nat.mul_comm, Nat.mul_add_div counts, Nat.div_eq_of_lt inside, Nat.add_zero]
      rw [same] at resource
      exact decide_eq_true (by omega)
    · cases known
  rw [parts, List.countP_append, List.countP_append, front, middle, back]
  omega

end Filled

section Rollover

variable (resources : ResourceSet) (policy : RolloverPolicy)

/-- A writer that rolls over: a call answers `Written` when one delegate has taken its batch
whole, and else none has taken anything; a restart goes on behind what the saved state had
written, and opens when nothing disturbs it; each batch lies where the policy has it by the number
of batches in the current resource, if it keeps a resource that has none; with a fixed number of
batches, at least one, every resource that was left holds as many; of the delegate streams one is
open at a time, each that was opened is closed once by the terminal close and none twice, and
behind a failed boundary close no delegate takes anything. -/
structure RollsOver (identity : String) (world : WriterWorld Batch) : Prop where
  whole : world.status = .running → ∀ request : WriteRequest Batch,
    ((writerComponent resources policy identity).call request world.state).1.1 = .ok .written ∧
        (∃ resource, (world.perform (writerComponent resources policy identity)
          (.call request)).history = world.history ++ [(resource, request.batch)]) ∨
      ((writerComponent resources policy identity).call request world.state).1.1 ≠ .ok .written ∧
        (world.perform (writerComponent resources policy identity) (.call request)).history =
          world.history
  restarts : ∀ index state written, world.saved[index]? = some (state, written) →
    ∀ script outcome,
      (world.perform (writerComponent resources policy identity)
        (.restart (script, outcome) (some index))).history = written ∧
      (script = [] → (world.perform (writerComponent resources policy identity)
        (.restart (script, outcome) (some index))).status = .running)
  placed : policy 0 = false → Placed policy resources.resources.length world.history
  filled : ∀ maxBatches, 0 < maxBatches → policy = batchCountRollover maxBatches →
    ∀ left later, left < later → (∃ batch, (later, batch) ∈ world.history) →
      world.history.countP (fun entry => decide (entry.1 = left)) = maxBatches
  oneOpen : ∀ (first second : Nat) (stream stream' : Stream),
    world.state.streams[first]? = some stream → world.state.streams[second]? = some stream' →
      stream.Live → stream'.Live → first = second
  closedOnce : ∀ stream ∈ world.state.streams,
    stream.closings.length ≤ 1 ∧ (stream.opened = false → stream.closings = [])
  allClosed : world.status = .closed → ∀ stream ∈ world.state.streams, stream.opened = true →
    stream.closings.length = 1
  final : world.status = .running → ∀ stream ∈ world.state.streams, ∀ category,
    (StreamRuntimeOutcome.resourceBoundary, some category) ∈ stream.closings →
      ∀ events : List (WriterEvent Batch), (∀ event ∈ events, event.goesOn) →
        (world.run (writerComponent resources policy identity) events).history =
            world.history ∧
          (world.run (writerComponent resources policy identity) events).saved = world.saved ∧
          ∃ requests : List (WriteRequest Batch),
            (world.run (writerComponent resources policy identity) events).answers =
              world.answers ++ requests.map (refusal category)

variable {resources policy} {identity : String} {world : WriterWorld Batch}

/-- With a fixed number of batches every resource that was left is filled. -/
private theorem writer_filled (sound : SoundWriter resources policy identity world)
    {maxBatches : Nat} (counts : 0 < maxBatches) (fixed : policy = batchCountRollover maxBatches)
    {left later : Nat} (before : left < later)
    (member : ∃ batch, (later, batch) ∈ world.history) :
    world.history.countP (fun entry => decide (entry.1 = left)) = maxBatches := by
  subst fixed
  have placed := sound.kept (decide_eq_false (Nat.not_le.mpr counts))
  exact countP_filled counts (fun number resource batch lies =>
    (placed number resource batch lies).trans (batchCount_resource counts number)) before member

end Rollover

section Overrun

variable {resources : ResourceSet} {attempt : Attempt (WriterShared Batch)}

/-- One batch lies in the resource in use. -/
def Stands (index : Nat) (attempt : Attempt (WriterShared Batch)) : Prop :=
  ∃ number stream, attempt.component.active = some (.active ⟨index, number, 1, false⟩) ∧
    attempt.streams[number]? = some stream ∧ stream.state.resource = index

/-- A write to the resource in use, which is empty. -/
private theorem writeCurrent_calm {index number : Nat} {stream : Stream} (batch : Batch)
    (active : attempt.component.active = some (.active ⟨index, number, 0, false⟩))
    (idle : attempt.component.taken = []) (calm : attempt.Calm)
    (found : attempt.streams[number]? = some stream) (here : stream.state.resource = index) :
    ∃ after, runs (writeCurrent batch) attempt = (.ok .written, after) ∧
      after.component.taken = [(index, batch)] ∧ Stands index after := by
  unfold writeCurrent
  rw [runs_bind, runs_component]
  dsimp only
  rw [active]
  dsimp only
  rw [runs_bind]
  rcases @delegateWrite_cases _ attempt number batch with took | ⟨_, _, _, rough⟩
  · rw [took]
    refine ⟨_, rfl, ?_, number, _, rfl, @moved_found _ attempt.drawn _ _ found, here⟩
    change attempt.component.taken ++ [((attempt.drawn.delegate number).resource, batch)] = _
    rw [idle, @delegate_eq _ attempt.drawn _ _ found, here]
    rfl
  · exact absurd calm rough

/-- The resource in use is left. -/
private theorem retire_calm (resource : ActiveWriteResource) (calm : attempt.Calm) :
    ∃ after, runs (retire resource) attempt = (.ok (), after) ∧
      after.component.taken = attempt.component.taken ∧ after.Calm := by
  obtain ⟨failed, closes, calmly⟩ :=
    @streamClose_runs _ WriterError attempt resource.stream .resourceBoundary
  obtain rfl := calmly calm
  unfold retire
  rw [runs_bind, closes]
  exact ⟨_, rfl, rfl, calm.drawn⟩

/-- The next resource is taken up. -/
private theorem goOn_calm (resource : ActiveWriteResource) (calm : attempt.Calm) :
    ∃ after number stream, runs (goOn resource) attempt = (.ok (), after) ∧
      after.component.active = some (.active ⟨nextIndex resource.index, number, 0, false⟩) ∧
      after.component.taken = attempt.component.taken ∧ after.Calm ∧
      after.streams[number]? = some stream ∧ stream.state.resource = nextIndex resource.index := by
  unfold goOn
  rw [runs_bind]
  rcases @takeUp_cases _ _ withCategory attempt (nextIndex resource.index) with
    ⟨after, done, taken, calmly⟩ | ⟨_, _, _, _, rough⟩
  · rw [done]
    obtain ⟨stream, found, state⟩ := taken.found
    have idle : after.component.taken = attempt.component.taken :=
      congrArg WriterShared.taken taken.component
    exact ⟨_, _, stream, rfl, rfl, idle, calmly calm, found, congrArg Delegate.resource state⟩
  · exact absurd calm rough

/-- Another batch goes to the next resource. -/
private theorem Stands.goesOn {index : Nat} (stands : Stands index attempt)
    (more : nextIndex index < resources.resources.length) (batch : Batch) :
    ∃ after, runs (write resources (batchCountRollover 1) false batch) (called attempt []) =
        (.ok .written, after) ∧
      after.component.taken = [(nextIndex index, batch)] ∧ Stands (nextIndex index) after := by
  obtain ⟨number, stream, active, _, _⟩ := stands
  have leaves : rolls resources (batchCountRollover 1) index 1 = true :=
    Bool.and_eq_true_iff.mpr ⟨rfl, decide_eq_true more⟩
  have active : (called attempt []).component.active =
    some (.active ⟨index, number, 1, false⟩) := active
  have idle : (called attempt []).component.taken = [] := rfl
  have calm : (called attempt []).Calm := rfl
  generalize called attempt [] = attempt' at *
  obtain ⟨left, retired, idle', calm'⟩ := retire_calm ⟨index, number, 1, false⟩ calm
  obtain ⟨middle, number', stream', done, active', idle'', calm'', found, here⟩ :=
    goOn_calm ⟨index, number, 1, false⟩ calm'
  have rolled : runs (rollOver ⟨index, number, 1, false⟩) attempt' = (.ok (), middle) := by
    unfold rollOver
    rw [if_neg Bool.false_ne_true, runs_bind, retired]
    exact done
  unfold write
  rw [if_neg Bool.false_ne_true, if_neg (Bool.eq_false_iff.mp (occupied more)), runs_bind,
    runs_component]
  dsimp only
  rw [active]
  dsimp only
  rw [leaves, if_pos rfl, runs_bind, rolled]
  exact writeCurrent_calm batch active' ((idle''.trans idle').trans idle) calm'' found here

/-- The first batch goes to the first resource. -/
private theorem starts_stands (identity : String) (batch : Batch)
    (some_resources : 0 < resources.resources.length) :
    ∃ attempt, runs (openStream resources identity none)
        ⟨[], [], (WriterShared.new : WriterShared Batch)⟩ = (.ok .initial, attempt) ∧
      ∃ after, runs (write resources (batchCountRollover 1) false batch) (called attempt []) =
          (.ok .written, after) ∧
        after.component.taken = [(0, batch)] ∧ Stands 0 after := by
  refine ⟨⟨[⟨⟨0, 0⟩, true, []⟩], [], ⟨some (.active ⟨0, 0, 0, false⟩), []⟩⟩, ?_, ?_⟩
  · have within : ¬ resources.ordinals ≤ 0 := by
      unfold ResourceSet.ordinals
      omega
    unfold openStream
    simp only [Option.isSome_none, Option.map_none, Option.getD_none, Option.any_none,
      Option.bind_none, Bool.false_eq_true, if_false, within]
    rfl
  · unfold write
    rw [if_neg Bool.false_ne_true, if_neg (Bool.eq_false_iff.mp (occupied some_resources)),
      runs_bind, runs_component]
    exact @writeCurrent_calm Batch _ 0 0 ⟨⟨0, 0⟩, true, []⟩ batch rfl rfl rfl rfl rfl

/-- One batch after the other, without any disturbance. -/
def steady (batch : Batch) (count : Nat) : List (WriterEvent Batch) :=
  .restart ([], .failed) none :: List.replicate count (.call ⟨false, batch, []⟩)

/-- Over 2^32 resources each batch goes to the next resource, and behind the last to the first. -/
private theorem steady_wraps (identity : String) (batch : Batch)
    (many : resources.resources.length = 2 ^ 32) (count : Nat) :
    ∃ world : WriterWorld Batch,
      (writerStart resources (batchCountRollover 1) identity).run
          (writerComponent resources (batchCountRollover 1) identity) (steady batch (count + 1)) =
        world ∧
      world.status = .running ∧ world.history.length = count + 1 ∧
      world.history[count]? = some (count % 2 ^ 32, batch) ∧
      Stands (count % 2 ^ 32) world.state := by
  induction count with
  | zero =>
    obtain ⟨attempt, opened, after, wrote, taken, stands⟩ :=
      starts_stands identity batch (by rw [many]; exact Nat.two_pow_pos 32)
    refine ⟨⟨after, .running, [(0, batch)], [(.ok .written, [(0, batch)])], []⟩, ?_, rfl, rfl, rfl,
      stands⟩
    unfold World.run steady
    simp only [List.replicate, List.foldl_cons, List.foldl_nil, writerStart, Restarts.World.initial,
      World.perform, World.attempt, writerComponent, opened, wrote, taken]
    rfl
  | succ count ih =>
    obtain ⟨world, reached, running, length, _, stands⟩ := ih
    have next : nextIndex (count % 2 ^ 32) = (count + 1) % 2 ^ 32 := Nat.mod_add_mod _ _ _
    obtain ⟨after, wrote, taken, stands'⟩ :=
      stands.goesOn (by rw [many, next]; exact Nat.mod_lt _ (Nat.two_pow_pos 32)) batch
    rw [next] at taken stands'
    refine ⟨world.perform (writerComponent resources (batchCountRollover 1) identity)
      (.call ⟨false, batch, []⟩), ?_, ?_⟩
    · rw [← reached]
      unfold World.run steady
      rw [List.replicate_succ', ← List.cons_append, List.foldl_append]
      rfl
    · rw [World.perform_call running]
      simp only [writerComponent, wrote, taken]
      refine ⟨running, ?_, ?_, stands'⟩
      · rw [List.length_append, length]
        rfl
      · rw [List.getElem?_append_right (by omega), length, Nat.sub_self]
        rfl

end Overrun

/-- Three small resources. -/
def threeParts : ResourceSet :=
  .new (fun _ => 0) (["a", "b", "c"].filterMap fun value => (ResourceIdentity.new value).toOption)

/-- The first write fails in the second resource, and is retried. -/
def retried : List (WriterEvent Nat) :=
  [.restart ([], .failed) none,
    .call ⟨false, 10, [.fine, .fine, .fine, .fails .transientInfrastructure]⟩,
    .call ⟨false, 10, []⟩]

end OxideBatch.Item.MultiResource.Writer
