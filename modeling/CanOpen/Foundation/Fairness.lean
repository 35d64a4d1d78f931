import CanOpen.Foundation.Trace
import Mathlib.Order.WellFounded

/-! # Endless runs under fair schedules

A machine is given its inputs by a schedule that never ends. If some inputs come again and again,
and in every state one of them is wanted that brings a goal closer, the goal is reached.
-/

namespace CanOpen.Fairness

/-- An input that always comes again. -/
def Recurs (schedule : Nat → ι) (input : ι) : Prop :=
  ∀ time, ∃ later, time ≤ later ∧ schedule later = input

/-- A machine that panics on no input of the schedule in a state it can be in runs on. -/
theorem exists_run {σ ι ω : Type u} (step : σ → ι → Exec (σ × ω)) {start : σ}
    (schedule : Nat → ι) (Holds : Nat → σ → Prop) (atStart : Holds 0 start)
    (returns : ∀ time state, Holds time state →
      ∃ after output, step state (schedule time) = pure (after, output) ∧
        Holds (time + 1) after) :
    ∃ states : Nat → σ, states 0 = start ∧ ∀ time, Holds time (states time) ∧
      ∃ output, step (states time) (schedule time) = pure (states (time + 1), output) := by
  have moves : ∀ time state, Holds time state → ∃ after,
      (∃ output, step state (schedule time) = pure (after, output)) ∧ Holds (time + 1) after := by
    intro time state holds
    rcases returns time state holds with ⟨after, output, taken, holdsAfter⟩
    exact ⟨after, ⟨output, taken⟩, holdsAfter⟩
  choose! after taken holds using moves
  let states : Nat → σ := fun time => Nat.rec start (fun time state => after time state) time
  have always : ∀ time, Holds time (states time) := by
    intro time
    induction time with
    | zero => exact atStart
    | succ time induction => exact holds time (states time) induction
  exact ⟨states, rfl, fun time =>
    ⟨always time, taken time (states time) (always time)⟩⟩

variable {σ : Type u} {ι : Type v} {α : Type w} {rel : α → α → Prop} (states : Nat → σ)
  (schedule : Nat → ι) (Goal : σ → Prop) (Ranked : σ → α → ι → Prop)

/-- As long as the input that is wanted does not come, the goal is reached, or the rank becomes
smaller, or the rank and what is wanted stay. -/
theorem smaller_or_waits
    (progress : ∀ time rank wanted, Ranked (states time) rank wanted →
      Goal (states (time + 1)) ∨
      (∃ smaller next, rel smaller rank ∧ Ranked (states (time + 1)) smaller next) ∨
      schedule time ≠ wanted ∧ Ranked (states (time + 1)) rank wanted)
    {time : Nat} {rank : α} {wanted : ι} (ranked : Ranked (states time) rank wanted)
    (count : Nat) :
    (∃ later, time ≤ later ∧ (Goal (states later) ∨
      ∃ smaller next, rel smaller rank ∧ Ranked (states later) smaller next)) ∨
    Ranked (states (time + count)) rank wanted := by
  induction count with
  | zero => exact .inr ranked
  | succ count induction =>
      rcases induction with reached | waits
      · exact .inl reached
      · rcases progress _ _ _ waits with goal | smaller | ⟨_, still⟩
        · exact .inl ⟨_, by omega, .inl goal⟩
        · exact .inl ⟨_, by omega, .inr smaller⟩
        · exact .inr still

/-- If every wanted input recurs, and its coming makes the rank smaller or reaches the goal, the
goal is reached from every ranked state. -/
theorem reaches (wellFounded : WellFounded rel)
    (fair : ∀ state rank wanted, Ranked state rank wanted → Recurs schedule wanted)
    (progress : ∀ time rank wanted, Ranked (states time) rank wanted →
      Goal (states (time + 1)) ∨
      (∃ smaller next, rel smaller rank ∧ Ranked (states (time + 1)) smaller next) ∨
      schedule time ≠ wanted ∧ Ranked (states (time + 1)) rank wanted)
    {time : Nat} {rank : α} {wanted : ι} (ranked : Ranked (states time) rank wanted) :
    ∃ later, time ≤ later ∧ Goal (states later) := by
  induction rank using wellFounded.induction generalizing time wanted with
  | _ rank induction =>
      have closer : ∃ later, time ≤ later ∧ (Goal (states later) ∨
          ∃ smaller next, rel smaller rank ∧ Ranked (states later) smaller next) := by
        rcases fair _ _ _ ranked time with ⟨due, notBefore, comes⟩
        rcases smaller_or_waits states schedule Goal Ranked progress ranked (due - time) with
          reached | waits
        · exact reached
        · rw [Nat.add_sub_cancel' notBefore] at waits
          rcases progress _ _ _ waits with goal | smaller | ⟨notNow, _⟩
          · exact ⟨due + 1, by omega, .inl goal⟩
          · exact ⟨due + 1, by omega, .inr smaller⟩
          · exact absurd comes notNow
      rcases closer with ⟨later, after, goal | ⟨smaller, next, less, rankedLater⟩⟩
      · exact ⟨later, after, goal⟩
      · rcases induction smaller less rankedLater with ⟨last, afterLater, goal⟩
        exact ⟨last, after.trans afterLater, goal⟩

end CanOpen.Fairness
