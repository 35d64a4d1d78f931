import CanOpen.Foundation.Exec

/-! # Runs of a machine and their histories

A machine takes one input at a time, answers it and moves on. Its run over a
list of inputs is kept as the list of events that happened, so that a property
of a run can look back at everything before a step.
-/

namespace CanOpen.Trace

structure Event (σ ι ω : Type u) where
  before : σ
  input : ι
  output : ω
  after : σ

variable {σ ι ω : Type u}

/-- Feed the inputs one after the other. The result is the history of the run
and the state it ends in. -/
def run (step : σ → ι → Exec (σ × ω)) :
    σ → List ι → Exec (List (Event σ ι ω) × σ)
  | state, [] => pure ([], state)
  | state, input :: inputs => do
      let (after, output) ← step state input
      let (events, final) ← run step after inputs
      pure (⟨state, input, output, after⟩ :: events, final)

variable {step : σ → ι → Exec (σ × ω)} {start final : σ} {inputs : List ι}
  {events : List (Event σ ι ω)}

theorem run_cons_eq_pure_iff {input : ι} :
    run step start (input :: inputs) = pure (events, final) ↔
      ∃ after output later, step start input = pure (after, output) ∧
        run step after inputs = pure (later, final) ∧
        events = ⟨start, input, output, after⟩ :: later := by
  constructor
  · intro ran
    rw [run, Exec.bind_eq_pure_iff] at ran
    rcases ran with ⟨⟨after, output⟩, taken, ran⟩
    rw [Exec.bind_eq_pure_iff] at ran
    rcases ran with ⟨⟨later, last⟩, laterRan, ran⟩
    cases ran
    exact ⟨after, output, later, taken, laterRan, rfl⟩
  · rintro ⟨after, output, later, taken, laterRan, rfl⟩
    simp [run, taken, laterRan]

theorem run_first {event : Event σ ι ω} {later : List (Event σ ι ω)}
    (ran : run step start inputs = pure (event :: later, final)) :
    ∃ rest, inputs = event.input :: rest ∧ event.before = start ∧
      step start event.input = pure (event.after, event.output) ∧
      run step event.after rest = pure (later, final) := by
  cases inputs with
  | nil =>
      simp only [run, Exec.pure_inj, Prod.mk.injEq] at ran
      cases ran.1
  | cons input inputs =>
      rcases run_cons_eq_pure_iff.mp ran with ⟨after, output, rest, taken, laterRan, split⟩
      cases split
      exact ⟨inputs, rfl, rfl, taken, laterRan⟩

/-- An event of a run is a step, and what follows it is the run from there. -/
theorem run_split {past later : List (Event σ ι ω)} {event : Event σ ι ω}
    (ran : run step start inputs = pure (past ++ event :: later, final)) :
    step event.before event.input = pure (event.after, event.output) ∧
      ∃ rest, run step event.after rest = pure (later, final) := by
  induction past generalizing start inputs with
  | nil =>
      rcases run_first ran with ⟨rest, -, sameStart, taken, laterRan⟩
      exact ⟨sameStart ▸ taken, rest, laterRan⟩
  | cons first past induction =>
      rcases run_first ran with ⟨rest, -, -, -, laterRan⟩
      exact induction laterRan

/-- An invariant of the history and the state, kept by every step, holds after
every run; and whatever a step shows under the invariant holds of every event
and the history before it. -/
theorem run_history (Holds : List (Event σ ι ω) → σ → Prop)
    (Shows : List (Event σ ι ω) → Event σ ι ω → Prop)
    (atStart : Holds [] start)
    (kept : ∀ past state input after output, Holds past state →
      step state input = pure (after, output) →
      Holds (past ++ [⟨state, input, output, after⟩]) after ∧
        Shows past ⟨state, input, output, after⟩)
    (ran : run step start inputs = pure (events, final)) :
    Holds events final ∧
      ∀ past event future, events = past ++ event :: future → Shows past event := by
  suffices general : ∀ past state inputs events, Holds past state →
      run step state inputs = pure (events, final) →
      Holds (past ++ events) final ∧
        ∀ earlier event future, events = earlier ++ event :: future →
          Shows (past ++ earlier) event by
    simpa using general [] start inputs events atStart ran
  intro past state inputs events holds ran
  induction inputs generalizing past state events with
  | nil =>
      simp only [run, Exec.pure_inj, Prod.mk.injEq] at ran
      rcases ran with ⟨rfl, rfl⟩
      simpa using holds
  | cons input inputs induction =>
      rcases run_cons_eq_pure_iff.mp ran with
        ⟨after, output, later, taken, laterRan, rfl⟩
      rcases kept past state input after output holds taken with ⟨holdsAfter, shows_⟩
      rcases induction _ _ _ holdsAfter laterRan with ⟨holdsFinal, showsLater⟩
      refine ⟨by simpa using holdsFinal, ?_⟩
      intro earlier event future split
      cases earlier with
      | nil =>
          simp only [List.nil_append, List.cons.injEq] at split
          simpa [← split.1] using shows_
      | cons first earlier =>
          simp only [List.cons_append, List.cons.injEq] at split
          have shown := showsLater earlier event future split.2
          simpa [← split.1] using shown

/-- What the steps of one kind keep holds for as long as only such steps are taken. -/
theorem run_while (Kind : Event σ ι ω → Prop) (Holds : List (Event σ ι ω) → σ → Prop)
    (atStart : Holds [] start)
    (kept : ∀ past event, Holds past event.before →
      step event.before event.input = pure (event.after, event.output) → Kind event →
      Holds (past ++ [event]) event.after)
    (ran : run step start inputs = pure (events, final)) :
    ((∀ event ∈ events, Kind event) → Holds events final) ∧
      ∀ past event future, events = past ++ event :: future →
        (∀ earlier ∈ past, Kind earlier) → Holds past event.before := by
  apply run_history (fun past state => (∀ event ∈ past, Kind event) → Holds past state)
    (fun past event => (∀ earlier ∈ past, Kind earlier) → Holds past event.before)
    (fun _ => atStart) _ ran
  intro past state input after output holds taken
  refine ⟨fun kinds => ?_, holds⟩
  rw [List.forall_mem_append, List.forall_mem_singleton] at kinds
  exact kept past ⟨state, input, output, after⟩ (holds kinds.1) taken kinds.2

theorem run_invariant (Holds : σ → Prop) (atStart : Holds start)
    (kept : ∀ state input after output, Holds state →
      step state input = pure (after, output) → Holds after)
    (ran : run step start inputs = pure (events, final)) : Holds final :=
  (run_history (fun _ state => Holds state) (fun _ _ => True)
    atStart (fun _ state input after output holds taken =>
      ⟨kept state input after output holds taken, trivial⟩) ran).1

/-- A machine that panics on none of the inputs in a state it can be in completes
the run. -/
theorem run_total (Holds : σ → Prop) (inputs : List ι) (atStart : Holds start)
    (returns : ∀ state, ∀ input ∈ inputs, Holds state →
      ∃ after output, step state input = pure (after, output) ∧ Holds after) :
    ∃ events final, run step start inputs = pure (events, final) ∧ Holds final := by
  induction inputs generalizing start with
  | nil => exact ⟨[], start, rfl, atStart⟩
  | cons input inputs induction =>
      rcases returns start input List.mem_cons_self atStart with
        ⟨after, output, taken, holds⟩
      rcases induction holds fun state item member =>
        returns state item (List.mem_cons_of_mem input member) with
        ⟨later, final, laterRan, holdsFinal⟩
      exact ⟨_, final,
        run_cons_eq_pure_iff.mpr ⟨after, output, later, taken, laterRan, rfl⟩,
        holdsFinal⟩

theorem run_inputs (ran : run step start inputs = pure (events, final)) :
    events.map Event.input = inputs := by
  induction inputs generalizing start events with
  | nil =>
      simp only [run, Exec.pure_inj, Prod.mk.injEq] at ran
      simp [← ran.1]
  | cons input inputs induction =>
      rcases run_cons_eq_pure_iff.mp ran with ⟨after, output, later, _, laterRan, rfl⟩
      simp [induction laterRan]

theorem run_take (ran : run step start inputs = pure (events, final)) (count : Nat) :
    ∃ reached, run step start (inputs.take count) = pure (events.take count, reached) := by
  induction count generalizing start inputs events with
  | zero => exact ⟨start, by simp [run]⟩
  | succ count induction =>
      cases inputs with
      | nil =>
          simp only [run, Exec.pure_inj, Prod.mk.injEq] at ran
          exact ⟨start, by simp [run, ← ran.1]⟩
      | cons input inputs =>
          rcases run_cons_eq_pure_iff.mp ran with ⟨after, output, later, taken, laterRan, rfl⟩
          rcases induction laterRan with ⟨reached, takenRan⟩
          exact ⟨reached,
            run_cons_eq_pure_iff.mpr ⟨after, output, _, taken, takenRan, by simp⟩⟩

end CanOpen.Trace
