import CanOpen.Foundation.Trace

/-! # Two executions side by side

Rules to show of two computations that they panic alike or return related results.
-/

namespace CanOpen.Exec

/-- Both computations stop in the same panic, or both return and their results are
related. -/
inductive Relates (Related : α → β → Prop) : Exec α → Exec β → Prop
  | returns {left : α} {right : β} : Related left right →
      Relates Related (pure left) (pure right)
  | panics (panic : Panic) : Relates Related (throw panic) (throw panic)

variable {Related : α → β → Prop} {Next : γ → δ → Prop} {left : Exec α} {right : Exec β}

theorem Relates.bind {nextLeft : α → Exec γ} {nextRight : β → Exec δ}
    (first : Relates Related left right)
    (next : ∀ a b, Related a b → Relates Next (nextLeft a) (nextRight b)) :
    Relates Next (left >>= nextLeft) (right >>= nextRight) := by
  cases first with
  | returns related => exact next _ _ related
  | panics panic => exact .panics panic

theorem Relates.bind_same {first : Exec α} {nextLeft : α → Exec γ} {nextRight : α → Exec δ}
    (next : ∀ a, Relates Next (nextLeft a) (nextRight a)) :
    Relates Next (first >>= nextLeft) (first >>= nextRight) := by
  cases first with
  | error panic => exact .panics panic
  | ok value => exact next value

theorem Relates.ite {condition : Prop} [Decidable condition] {thenLeft elseLeft : Exec α}
    {thenRight elseRight : Exec β} (holds : condition → Relates Related thenLeft thenRight)
    (fails : ¬ condition → Relates Related elseLeft elseRight) :
    Relates Related (if condition then thenLeft else elseLeft)
      (if condition then thenRight else elseRight) := by
  split
  · next condition => exact holds condition
  · next condition => exact fails condition

end CanOpen.Exec

namespace CanOpen.Trace

variable {σ ι ω : Type u} {step : σ → ι → Exec (σ × ω)}

def SameOutputs (Related : σ → σ → Prop) (left right : List (Event σ ι ω) × σ) : Prop :=
  left.1.map Event.output = right.1.map Event.output ∧ Related left.2 right.2

/-- If every step from related states has the same output and leads to related states,
so do the runs. -/
theorem run_relates {Related : σ → σ → Prop}
    (next : ∀ left right input, Related left right →
      Exec.Relates (fun a b => a.2 = b.2 ∧ Related a.1 b.1) (step left input) (step right input))
    (inputs : List ι) {left right : σ} (related : Related left right) :
    Exec.Relates (SameOutputs Related) (run step left inputs) (run step right inputs) := by
  induction inputs generalizing left right with
  | nil => exact .returns ⟨rfl, related⟩
  | cons input inputs induction =>
      refine (next left right input related).bind fun first second afterOne => ?_
      refine (induction afterOne.2).bind fun events others afterAll => .returns ⟨?_, afterAll.2⟩
      simp only [List.map_cons, afterOne.1, afterAll.1]

end CanOpen.Trace
