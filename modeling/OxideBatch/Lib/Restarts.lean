import Mathlib

/-! Components that save their state as they go and are restarted from any state saved
before: attempts, calls, and what a restarted history consists of. -/

namespace Restarts

/-- A component over states `σ`. A history records what calls have done; the circumstances of
opening, saving, and closing come from outside. -/
structure Component (σ Saved Request Answer Circumstance History : Type) where
  begins : Circumstance → Option Saved → σ × Bool
  call : Request → σ → Answer × σ
  save : Circumstance → σ → Option Saved × σ
  close : Circumstance → σ → σ
  empty : History
  record : History → Request → Answer → History

inductive Status where
  | idle
  | running
  | closed
  deriving DecidableEq

variable {σ Saved Request Answer Circumstance History : Type}

/-- The attempt that goes on, the history it stands in, its answers so far, and all states
ever saved, each with the history up to it. -/
structure World (σ Saved Answer History : Type) where
  state : σ
  status : Status
  history : History
  answers : List Answer
  saved : List (Saved × History)

/-- What happens next; a restart names one of the states saved. -/
inductive Event (Request Circumstance : Type) where
  | restart (circumstance : Circumstance) (inherited : Option Nat)
  | call (request : Request)
  | save (circumstance : Circumstance)
  | close (circumstance : Circumstance)

variable (component : Component σ Saved Request Answer Circumstance History)

/-- A new attempt, which runs when it opens. -/
def World.attempt (world : World σ Saved Answer History) (circumstance : Circumstance)
    (inherited : Option Saved) (history : History) : World σ Saved Answer History :=
  { world with
    state := (component.begins circumstance inherited).1
    status := if (component.begins circumstance inherited).2 then .running else .idle
    history := history
    answers := [] }

/-- One event; what is asked of an attempt that does not run is not done. -/
def World.perform (world : World σ Saved Answer History) :
    Event Request Circumstance → World σ Saved Answer History
  | .restart circumstance none => world.attempt component circumstance none component.empty
  | .restart circumstance (some index) =>
    match world.saved[index]? with
    | some (state, history) => world.attempt component circumstance (some state) history
    | none => world
  | .call request =>
    if world.status = .running then
      { world with
        state := (component.call request world.state).2
        history := component.record world.history request (component.call request world.state).1
        answers := world.answers ++ [(component.call request world.state).1] }
    else world
  | .save circumstance =>
    if world.status = .running then
      { world with
        state := (component.save circumstance world.state).2
        saved := world.saved ++
          (component.save circumstance world.state).1.toList.map fun state =>
            (state, world.history) }
    else world
  | .close circumstance =>
    if world.status = .running then
      { world with state := component.close circumstance world.state, status := .closed }
    else world

variable {component} in
/-- What an attempt that runs makes of a call. -/
theorem World.perform_call {world : World σ Saved Answer History} (runs : world.status = .running)
    (request : Request) :
    world.perform component (.call request) =
      { world with
        state := (component.call request world.state).2
        history := component.record world.history request (component.call request world.state).1
        answers := world.answers ++ [(component.call request world.state).1] } := by
  simp only [World.perform]
  exact if_pos runs

variable {component} in
/-- An attempt that opens from a saved state runs. -/
theorem World.restart_runs {world : World σ Saved Answer History} {index : Nat}
    {circumstance : Circumstance} (within : index < world.saved.length)
    (opens : (component.begins circumstance (some world.saved[index].1)).2 = true) :
    (world.perform component (.restart circumstance (some index))).status = .running := by
  simp only [World.perform, List.getElem?_eq_getElem within]
  exact if_pos opens

def World.run (world : World σ Saved Answer History) (events : List (Event Request Circumstance)) :
    World σ Saved Answer History :=
  events.foldl (World.perform component) world

/-- Before the first attempt. -/
def World.initial (state : σ) : World σ Saved Answer History :=
  ⟨state, .idle, component.empty, [], []⟩

/-- What is to be shown of a component: `stage` holds of an attempt that runs, with its
history and answers, `rests` of one that does not, `kept` of history and answers alone, and a
saved state `restores` its history. -/
structure Discipline (stage : σ → History → List Answer → Prop) (rests : σ → Prop)
    (kept : History → List Answer → Prop) (restores : Saved → History → Prop) : Prop where
  starts : kept component.empty []
  resumes : ∀ saved history, restores saved history → kept history []
  opens : ∀ circumstance inherited history,
    (inherited = none → history = component.empty) →
    (∀ saved, inherited = some saved → restores saved history) →
    ((component.begins circumstance inherited).2 = true →
      stage (component.begins circumstance inherited).1 history []) ∧
    ((component.begins circumstance inherited).2 = false →
      rests (component.begins circumstance inherited).1)
  calls : ∀ request state history answers, stage state history answers →
    stage (component.call request state).2
      (component.record history request (component.call request state).1)
      (answers ++ [(component.call request state).1])
  saves : ∀ circumstance state history answers, stage state history answers →
    stage (component.save circumstance state).2 history answers ∧
      ∀ saved, (component.save circumstance state).1 = some saved → restores saved history
  closes : ∀ circumstance state history answers, stage state history answers →
    rests (component.close circumstance state)
  keeps : ∀ state history answers, stage state history answers → kept history answers

/-- What a discipline makes of every world. -/
structure Sound (stage : σ → History → List Answer → Prop) (rests : σ → Prop)
    (kept : History → List Answer → Prop) (restores : Saved → History → Prop)
    (world : World σ Saved Answer History) : Prop where
  running : world.status = .running → stage world.state world.history world.answers
  resting : world.status ≠ .running → rests world.state
  kept : kept world.history world.answers
  saved : ∀ saved ∈ world.saved, restores saved.1 saved.2

variable {component} {stage : σ → History → List Answer → Prop} {rests : σ → Prop}
  {kept : History → List Answer → Prop} {restores : Saved → History → Prop}
  {world : World σ Saved Answer History}

theorem Sound.attempt (discipline : Discipline component stage rests kept restores)
    (sound : Sound stage rests kept restores world) (circumstance : Circumstance)
    {inherited : Option Saved} {history : History}
    (fresh : inherited = none → history = component.empty)
    (restored : ∀ saved, inherited = some saved → restores saved history) :
    Sound stage rests kept restores (world.attempt component circumstance inherited history) := by
  have opens := discipline.opens circumstance inherited history fresh restored
  have begins : kept history [] := by
    cases inherited with
    | none => exact fresh rfl ▸ discipline.starts
    | some saved => exact discipline.resumes saved history (restored saved rfl)
  cases opened : (component.begins circumstance inherited).2 with
  | false =>
    refine ⟨fun runs => ?_, fun _ => opens.2 opened, begins, sound.saved⟩
    simp [World.attempt, opened] at runs
  | true =>
    refine ⟨fun _ => opens.1 opened, fun stands => ?_, begins, sound.saved⟩
    simp [World.attempt, opened] at stands

/-- Every event keeps a world sound. -/
theorem Sound.perform (discipline : Discipline component stage rests kept restores)
    (sound : Sound stage rests kept restores world) (event : Event Request Circumstance) :
    Sound stage rests kept restores (world.perform component event) := by
  cases event with
  | restart circumstance inherited =>
    cases inherited with
    | none => exact sound.attempt discipline circumstance (fun _ => rfl) fun _ same => by cases same
    | some index =>
      simp only [World.perform]
      split
      · rename_i state history found
        refine sound.attempt discipline circumstance (fun none_inherited => by cases none_inherited)
          fun saved same => ?_
        obtain rfl := Option.some.inj same
        exact sound.saved _ (List.mem_of_getElem? found)
      · exact sound
  | call request =>
    simp only [World.perform]
    split
    · rename_i runs
      have after := discipline.calls request _ _ _ (sound.running runs)
      exact ⟨fun _ => after, fun stands => absurd runs stands, discipline.keeps _ _ _ after,
        sound.saved⟩
    · exact sound
  | save circumstance =>
    simp only [World.perform]
    split
    · rename_i runs
      obtain ⟨after, states⟩ := discipline.saves circumstance _ _ _ (sound.running runs)
      refine ⟨fun _ => after, fun stands => absurd runs stands, sound.kept, fun saved member => ?_⟩
      rcases List.mem_append.mp member with old | new
      · exact sound.saved saved old
      · obtain ⟨state, given, rfl⟩ := List.mem_map.mp new
        exact states state (Option.mem_toList.mp given)
    · exact sound
  | close circumstance =>
    simp only [World.perform]
    split
    · rename_i runs
      refine ⟨fun again => (by cases again), fun _ => ?_, sound.kept, sound.saved⟩
      exact discipline.closes circumstance _ _ _ (sound.running runs)
    · exact sound

/-- Whatever happens, the world stays sound. -/
theorem Sound.run (discipline : Discipline component stage rests kept restores)
    (sound : Sound stage rests kept restores world) (events : List (Event Request Circumstance)) :
    Sound stage rests kept restores (world.run component events) := by
  induction events generalizing world with
  | nil => exact sound
  | cons event events ih => exact ih (sound.perform discipline event)

theorem sound_initial (discipline : Discipline component stage rests kept restores) {state : σ}
    (resting : rests state) :
    Sound stage rests kept restores (World.initial component state) :=
  ⟨fun runs => (by cases runs), fun _ => resting, discipline.starts,
    fun _ member => (by cases member)⟩

/-- An event of the attempt that is going on. -/
def Event.goesOn : Event Request Circumstance → Prop
  | .restart _ _ => False
  | _ => True

/-- What an attempt has answered stays answered. -/
theorem World.run_answers (events : List (Event Request Circumstance))
    (goOn : ∀ event ∈ events, event.goesOn) :
    ∃ later, (world.run component events).answers = world.answers ++ later := by
  induction events generalizing world with
  | nil => exact ⟨[], by simp [World.run]⟩
  | cons event events ih =>
    have step : ∃ now, (world.perform component event).answers = world.answers ++ now := by
      cases event with
      | restart circumstance inherited => exact absurd (goOn _ List.mem_cons_self) id
      | call request =>
        simp only [World.perform]
        split
        · exact ⟨_, rfl⟩
        · exact ⟨[], by simp⟩
      | save circumstance =>
        simp only [World.perform]
        split <;> exact ⟨[], by simp⟩
      | close circumstance =>
        simp only [World.perform]
        split <;> exact ⟨[], by simp⟩
    obtain ⟨now, answered⟩ := step
    obtain ⟨later, answers⟩ := @ih (world.perform component event) fun other member =>
      goOn other (List.mem_cons_of_mem _ member)
    exact ⟨now ++ later, by
      rw [← List.append_assoc, ← answered]
      exact answers⟩

variable (component) in
/-- A state that an attempt does not leave: what a call answers depends on the request alone
and records nothing, and nothing is saved any more. -/
structure Stuck (stuck : σ → Prop) (answer : Request → Answer) : Prop where
  calls : ∀ request state, stuck state →
    (component.call request state).1 = answer request ∧ stuck (component.call request state).2
  saves : ∀ circumstance state, stuck state →
    (component.save circumstance state).1 = none ∧ stuck (component.save circumstance state).2
  closes : ∀ circumstance state, stuck state → stuck (component.close circumstance state)
  records : ∀ history request, component.record history request (answer request) = history

/-- What is left of an attempt once it is stuck. -/
theorem Stuck.run {stuck : σ → Prop} {answer : Request → Answer}
    (stays : Stuck component stuck answer) (here : stuck world.state)
    (events : List (Event Request Circumstance))
    (goOn : ∀ event ∈ events, event.goesOn) :
    (world.run component events).history = world.history ∧
      (world.run component events).saved = world.saved ∧
      ∃ requests : List Request,
        (world.run component events).answers = world.answers ++ requests.map answer := by
  induction events generalizing world with
  | nil => exact ⟨rfl, rfl, [], by simp [World.run]⟩
  | cons event events ih =>
    have rest := goOn event (by simp)
    have step : stuck (world.perform component event).state ∧
        (world.perform component event).history = world.history ∧
        (world.perform component event).saved = world.saved ∧
        ∃ requests : List Request, (world.perform component event).answers =
          world.answers ++ requests.map answer := by
      cases event with
      | restart circumstance inherited => exact absurd rest id
      | call request =>
        simp only [World.perform]
        obtain ⟨same, after⟩ := stays.calls request _ here
        split
        · exact ⟨after, same ▸ stays.records _ _, rfl, [request], by rw [same]; rfl⟩
        · exact ⟨here, rfl, rfl, [], by simp⟩
      | save circumstance =>
        simp only [World.perform]
        obtain ⟨nothing, after⟩ := stays.saves circumstance _ here
        split
        · exact ⟨after, rfl, by simp [nothing], [], by simp⟩
        · exact ⟨here, rfl, rfl, [], by simp⟩
      | close circumstance =>
        simp only [World.perform]
        split
        · exact ⟨stays.closes circumstance _ here, rfl, rfl, [], by simp⟩
        · exact ⟨here, rfl, rfl, [], by simp⟩
    obtain ⟨after, history, saved, requests, answers⟩ := step
    obtain ⟨history', saved', requests', answers'⟩ :=
      ih after fun other member => goOn other (List.mem_cons_of_mem _ member)
    refine ⟨history'.trans history, saved'.trans saved, requests ++ requests', ?_⟩
    refine answers'.trans ?_
    rw [answers, List.append_assoc, List.map_append]

end Restarts
