import CanOpen.Foundation.Exec

/-! # Loops

A loop is a step that either produces the next state or ends. It is run with
fuel; `Ends` says that it stops by itself, after a known number of iterations
and without a panic, however much fuel it is given beyond that.
-/

namespace CanOpen.Loop

variable {σ : Type u}

/-- Run a loop for at most `fuel` iterations. The result is the number of
iterations made and the state in which the loop ended, or `none` when the fuel
ran out first. -/
def run (step : σ → Exec (Option σ)) : (fuel : Nat) → σ → Exec (Option (Nat × σ))
  | 0, _ => pure none
  | fuel + 1, state => do
      match ← step state with
      | none => pure (some (0, state))
      | some next =>
          let rest ← run step fuel next
          pure (rest.map fun ended => (ended.1 + 1, ended.2))

def Ends (step : σ → Exec (Option σ)) (start : σ) (count : Nat) (final : σ) : Prop :=
  ∀ fuel, count < fuel → run step fuel start = pure (some (count, final))

inductive Steps (step : σ → Exec (Option σ)) : σ → Nat → σ → Prop
  | refl (state) : Steps step state 0 state
  | next {state middle current : σ} {count : Nat} :
      step state = pure (some middle) → Steps step middle count current →
      Steps step state (count + 1) current

variable {step : σ → Exec (Option σ)} {start middle current final : σ} {count : Nat}

theorem Steps.one (taken : step start = pure (some middle)) :
    Steps step start 1 middle :=
  .next taken (.refl middle)

theorem Steps.trans {first second : Nat} (left : Steps step start first middle)
    (right : Steps step middle second final) :
    Steps step start (first + second) final := by
  induction left with
  | refl => simpa using right
  | @next state middle current count taken rest induction =>
      have total : count + 1 + second = (count + second) + 1 := by omega
      rw [total]
      exact .next taken (induction right)

/-- What holds at the start and is kept by every iteration holds after any
number of them. -/
theorem Steps.invariant (Holds : Nat → σ → Prop) (atStart : Holds 0 start)
    (kept : ∀ position state next, Holds position state →
      step state = pure (some next) → Holds (position + 1) next)
    (steps : Steps step start count current) : Holds count current := by
  suffices shifted : ∀ position state number reached, Holds position state →
      Steps step state number reached → Holds (position + number) reached by
    simpa using shifted 0 start count current atStart steps
  intro position state number reached holds taken
  induction taken generalizing position with
  | refl => exact holds
  | @next state middle current count first rest induction =>
      have later := induction (position + 1) (kept position state middle holds first)
      have total : position + 1 + count = position + (count + 1) := by omega
      rwa [total] at later

theorem ends_of_done (done : step start = pure none) : Ends step start 0 start := by
  intro fuel positive
  cases fuel with
  | zero => omega
  | succ fuel => simp [run, done]

theorem Steps.ends {first second : Nat} (steps : Steps step start first middle)
    (ends : Ends step middle second final) : Ends step start (first + second) final := by
  induction steps with
  | refl => simpa using ends
  | @next state middle current count taken rest induction =>
      intro fuel enough
      cases fuel with
      | zero => omega
      | succ fuel =>
          have remaining := induction ends fuel (by omega)
          rw [run, taken, pure_bind]
          simp only [remaining, pure_bind, Option.map_some]
          congr 3
          omega

theorem ends_of_measure (Holds : σ → Prop) (measure : σ → Nat)
    (progress : ∀ state, Holds state → step state = pure none ∨
      ∃ next, step state = pure (some next) ∧ Holds next ∧ measure next < measure state)
    (atStart : Holds start) :
    ∃ count final, Ends step start count final ∧ Holds final ∧ step final = pure none := by
  induction bound : measure start using Nat.strongRecOn generalizing start with
  | ind bound induction =>
      rcases progress start atStart with done | ⟨next, taken, holds, smaller⟩
      · exact ⟨0, start, ends_of_done done, atStart, done⟩
      · rcases induction (measure next) (bound ▸ smaller) holds rfl with
          ⟨count, final, ends, holdsFinal, done⟩
        exact ⟨1 + count, final, (Steps.one taken).ends ends, holdsFinal, done⟩

theorem Ends.steps (ends : Ends step start count final) :
    Steps step start count final ∧ step final = pure none := by
  have returns := ends (count + 1) (by omega)
  suffices unfolded : ∀ fuel number state, run step fuel state = pure (some (number, final)) →
      Steps step state number final ∧ step final = pure none from
    unfolded _ _ _ returns
  intro fuel
  induction fuel with
  | zero =>
      intro number state ran
      simp [run] at ran
  | succ fuel induction =>
      intro number state ran
      rw [run, Exec.bind_eq_pure_iff] at ran
      rcases ran with ⟨next, taken, ran⟩
      cases next with
      | none =>
          simp only [Exec.pure_inj, Option.some.injEq, Prod.mk.injEq] at ran
          rcases ran with ⟨rfl, rfl⟩
          exact ⟨.refl _, taken⟩
      | some next =>
          rw [Exec.bind_eq_pure_iff] at ran
          rcases ran with ⟨rest, restRan, ran⟩
          rw [Exec.pure_inj, Option.map_eq_some_iff] at ran
          rcases ran with ⟨⟨ended, last⟩, rfl, equal⟩
          cases equal
          rcases induction _ _ restRan with ⟨steps, done⟩
          exact ⟨.next taken steps, done⟩

theorem Ends.from_reached {reached : Nat} (ends : Ends step start count final)
    (steps : Steps step start reached current) :
    ∃ remaining, Ends step current remaining final := by
  induction steps generalizing count with
  | refl state => exact ⟨count, ends⟩
  | @next state middle current number taken rest induction =>
      rcases ends.steps with ⟨all, done⟩
      cases all with
      | refl => cases taken.symm.trans done
      | next first others =>
          cases taken.symm.trans first
          exact induction (others.ends (ends_of_done done))

theorem Ends.next_or_final {reached : Nat} (ends : Ends step start count final)
    (steps : Steps step start reached current) :
    (∃ next, step current = pure (some next)) ∨ current = final := by
  rcases ends.from_reached steps with ⟨remaining, endsHere⟩
  cases endsHere.steps.1 with
  | refl => exact .inr rfl
  | next taken _ => exact .inl ⟨_, taken⟩

theorem Ends.simulated {τ : Type v} {other : τ → Exec (Option τ)}
    {Related : σ → τ → Prop} {begin : τ}
    (next : ∀ state partner reached, Related state partner →
      step state = pure (some reached) →
      ∃ answer, other partner = pure (some answer) ∧ Related reached answer)
    (stop : ∀ state partner, Related state partner → step state = pure none →
      other partner = pure none)
    (related : Related start begin) (ends : Ends step start count final) :
    ∃ answer, Ends other begin count answer ∧ Related final answer := by
  rcases ends.steps with ⟨steps, done⟩
  clear ends
  induction steps generalizing begin with
  | refl state => exact ⟨begin, ends_of_done (stop _ _ related done), related⟩
  | @next state middle current count taken rest induction =>
      rcases next _ _ _ related taken with ⟨answer, answered, relatedNext⟩
      rcases induction relatedNext done with ⟨last, lastEnds, lastRelated⟩
      refine ⟨last, ?_, lastRelated⟩
      have total : count + 1 = 1 + count := by omega
      rw [total]
      exact (Steps.one answered).ends lastEnds

end CanOpen.Loop
