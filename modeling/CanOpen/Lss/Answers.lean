import CanOpen.Lss.Fastscan
import Mathlib.Tactic.IntervalCases

/-! # A scan driven by arbitrary answers

The master sees nothing of the bus but one answer to each request. Here the
answers are arbitrary: responses may be missed, and a node may leave at any step.
-/

namespace CanOpen.Lss

open FastscanMaster

/-- Transmit the next request and report the next answer. The state is the
master with the number of answers it has been given. -/
def drive (answers : Nat → Bool) (state : FastscanMaster × Nat) :
    Exec (Option (FastscanMaster × Nat)) := do
  match ← state.1.nextRequest with
  | none => pure none
  | some _ => do
      let master ← state.1.onResponse (answers state.2)
      pure (some (master, state.2 + 1))

structure IsConfirm (req : LssFrame) : Prop where
  command : req.get 0 = csFastscan
  bitCheck : req.get 5 = 0
  next : req.get 7 ≠ req.get 6

def ConfirmsAnswered (answers : Nat → Bool) : Prop :=
  ∀ requests final, Loop.Ends (drive answers) (.new, 0) requests final →
    final.1.isComplete = true → final.1.found = true →
    ∀ position current req, Loop.Steps (drive answers) (.new, 0) position current →
      current.1.nextRequest = pure (some req) → IsConfirm req → answers position = true

variable {answers : Nat → Bool}

theorem drive_of_next {state : FastscanMaster × Nat} {req : LssFrame}
    {master : FastscanMaster} (requests : state.1.nextRequest = pure (some req))
    (advanced : state.1.onResponse (answers state.2) = pure master) :
    drive answers state = pure (some (master, state.2 + 1)) := by
  simp only [drive, requests, pure_bind, advanced]

/-! ## The stages of the scan -/

/-- The master after `position` answers, the first of them positive, when `sub`
values are confirmed and `left` bits of the next one are not yet known. -/
structure Scanning (position sub left : Nat) (state : FastscanMaster × Nat) : Prop where
  answered : state.2 = position
  sub : state.1.sub = UInt8.ofNat sub
  bit : state.1.bit = bitAt left
  found : state.1.found = true

theorem drive_init_false (missed : answers 0 = false) :
    drive answers (.new, 0) = pure (some ({ FastscanMaster.new with sub := 4 }, 1)) := by
  have advanced : onResponse .new (answers 0) = pure { FastscanMaster.new with sub := 4 } := by
    rw [missed]
    rfl
  exact drive_of_next rfl advanced

theorem drive_init_true (present : answers 0 = true) :
    ∃ next, drive answers (.new, 0) = pure (some next) ∧ Scanning 1 0 32 next := by
  have advanced : onResponse .new (answers 0) =
      pure { FastscanMaster.new with found := true, bit := bitAt 32 } := by
    rw [present]
    rfl
  exact ⟨_, drive_of_next rfl advanced, rfl, rfl, rfl, rfl⟩

theorem Scanning.probe (answers : Nat → Bool) {position sub left : Nat}
    {state : FastscanMaster × Nat} (scanning : Scanning position sub (left + 1) state)
    (subLt : sub < 4) (leftLt : left < 32) :
    ∃ next, drive answers state = pure (some next) ∧
      Scanning (position + 1) sub left next := by
  have requests := nextRequest_probe scanning.sub subLt scanning.bit leftLt
  have advanced := onResponse_probe (answers state.2) scanning.sub subLt scanning.bit leftLt
  exact ⟨_, drive_of_next requests advanced, by simp [scanning.answered], scanning.sub, rfl,
    scanning.found⟩

theorem Scanning.confirm (answers : Nat → Bool) {position sub : Nat} {state : FastscanMaster × Nat}
    (scanning : Scanning position sub 0 state) (subLt : sub < 4) :
    ∃ next, drive answers state = pure (some next) ∧
      Scanning (position + 1) (sub + 1) 32 next := by
  have requests := nextRequest_confirm scanning.sub subLt scanning.bit
  have advanced := onResponse_confirm (answers state.2) scanning.sub subLt scanning.bit
  exact ⟨_, drive_of_next requests advanced, by simp [scanning.answered], rfl, rfl,
    scanning.found⟩

theorem Scanning.done {position left : Nat} {state : FastscanMaster × Nat}
    (scanning : Scanning position 4 left state) : drive answers state = pure none := by
  have requests := nextRequest_complete scanning.sub
  simp only [drive, requests, pure_bind]

/-! ## Every scan that begins runs to its end -/

theorem Scanning.probes (answers : Nat → Bool) {position sub left : Nat}
    {state : FastscanMaster × Nat}
    (scanning : Scanning position sub left state) (subLt : sub < 4) (leftLe : left ≤ 32) :
    ∃ reached, Loop.Steps (drive answers) state left reached ∧
      Scanning (position + left) sub 0 reached := by
  induction left generalizing position state with
  | zero => exact ⟨state, .refl state, scanning⟩
  | succ left induction =>
      rcases scanning.probe answers subLt (by omega) with ⟨next, taken, stage⟩
      rcases induction stage (by omega) with ⟨reached, steps, last⟩
      rw [show position + 1 + left = position + (left + 1) by omega] at last
      exact ⟨reached, .next taken steps, last⟩

theorem exists_steps_scanning (present : answers 0 = true) {sub : Nat} (subLe : sub ≤ 4) :
    ∃ state, Loop.Steps (drive answers) (.new, 0) (33 * sub + 1) state ∧
      Scanning (33 * sub + 1) sub 32 state := by
  induction sub with
  | zero =>
      rcases drive_init_true present with ⟨next, taken, scanning⟩
      exact ⟨next, .one taken, scanning⟩
  | succ sub induction =>
      rcases induction (by omega) with ⟨state, steps, scanning⟩
      rcases scanning.probes answers (by omega) (Nat.le_refl 32) with
        ⟨reached, probes, known⟩
      rcases known.confirm answers (by omega) with ⟨next, taken, following⟩
      have total : 33 * (sub + 1) + 1 = 33 * sub + 1 + 32 + 1 := by omega
      rw [total]
      exact ⟨next, (steps.trans probes).trans (.one taken), following⟩

/-! ## Every stage a scan can reach -/

inductive Stands (answers : Nat → Bool) (position : Nat) (state : FastscanMaster × Nat) :
    Prop
  | start : position = 0 → state = (.new, 0) → Stands answers position state
  | nobody : answers 0 = false → state = ({ FastscanMaster.new with sub := 4 }, 1) →
      Stands answers position state
  | scanning (sub left : Nat) : answers 0 = true → sub < 4 → left ≤ 32 →
      position = 33 * sub + 1 + (32 - left) → Scanning position sub left state →
      Stands answers position state
  | complete : answers 0 = true → Scanning position 4 32 state →
      Stands answers position state

theorem Stands.step {position : Nat} {state next : FastscanMaster × Nat}
    (stands : Stands answers position state) (taken : drive answers state = pure (some next)) :
    Stands answers (position + 1) next := by
  have same : ∀ {other}, drive answers state = pure (some other) → next = other := by
    intro other otherTaken
    rw [taken] at otherTaken
    simpa using otherTaken
  cases stands with
  | start first begin =>
      subst first begin
      cases present : answers 0 with
      | false => exact .nobody present (same (drive_init_false present))
      | true =>
          rcases drive_init_true present with ⟨other, otherTaken, scanning⟩
          rw [same otherTaken]
          exact .scanning 0 32 present (by decide) (Nat.le_refl _) rfl scanning
  | nobody missed ended =>
      subst ended
      have finished : drive answers ({ FastscanMaster.new with sub := 4 }, 1) = pure none := by
        have requests : nextRequest { FastscanMaster.new with sub := 4 } = _ :=
          nextRequest_complete rfl
        simp only [drive, requests, pure_bind]
      rw [finished] at taken
      cases taken
  | scanning sub left present subLt leftLe placed scanning =>
      cases left with
      | zero =>
          rcases scanning.confirm answers subLt with
            ⟨other, otherTaken, following⟩
          rw [same otherTaken]
          by_cases last : sub = 3
          · subst last
            exact .complete present following
          · exact .scanning (sub + 1) 32 present (by omega) (Nat.le_refl _) (by omega)
              following
      | succ left =>
          rcases scanning.probe answers subLt (by omega) with
            ⟨other, otherTaken, following⟩
          rw [same otherTaken]
          exact .scanning sub left present subLt (by omega) (by omega) following
  | complete _ scanning =>
      rw [scanning.done] at taken
      cases taken

theorem stands_of_steps {position : Nat} {state : FastscanMaster × Nat}
    (steps : Loop.Steps (drive answers) (.new, 0) position state) :
    Stands answers position state :=
  steps.invariant (Stands answers) (.start rfl rfl)
    fun _ _ _ stands taken => stands.step taken

private theorem confirm_fields : ∀ sub : Fin 4,
    (UInt8.ofNat sub + 1) &&& 3 ≠ UInt8.ofNat sub := by
  decide

theorem position_of_confirm {position : Nat} {state : FastscanMaster × Nat}
    {req : LssFrame} (stands : Stands answers position state)
    (requests : state.1.nextRequest = pure (some req)) (confirms : IsConfirm req) :
    answers 0 = true ∧ ∃ sub < 4, position = 33 * (sub + 1) := by
  have same : ∀ {other}, state.1.nextRequest = pure (some other) → req = other := by
    intro other otherRequests
    rw [requests] at otherRequests
    simpa using otherRequests
  cases stands with
  | start _ begin =>
      subst begin
      have init := same (show nextRequest .new = pure (some (encodeFastscan 0 fastscanInit 0 0))
        from rfl)
      have bitCheck := confirms.bitCheck
      rw [init, (encodeFastscan_fields 0 fastscanInit 0 0).2.2.1] at bitCheck
      exact absurd bitCheck (by decide)
  | nobody _ ended =>
      subst ended
      rw [nextRequest_complete rfl] at requests
      cases requests
  | scanning sub left present subLt leftLe placed scanning =>
      cases left with
      | zero => exact ⟨present, sub, subLt, by omega⟩
      | succ left =>
          have probe := same (nextRequest_probe scanning.sub subLt scanning.bit (by omega))
          have next := confirms.next
          rw [probe] at next
          exact absurd rfl next
  | complete _ scanning =>
      rw [nextRequest_complete scanning.sub] at requests
      cases requests

/-! ## Confirmations that nobody answered -/

theorem not_confirmsAnswered (present : answers 0 = true) {sub : Nat} (subLt : sub < 4)
    (missed : answers (33 * (sub + 1)) = false) : ¬ ConfirmsAnswered answers := by
  intro confirmed
  rcases exists_steps_scanning present (Nat.le_refl 4) with ⟨final, steps, complete⟩
  have ends := steps.ends (Loop.ends_of_done complete.done)
  have isComplete : final.1.isComplete = true := by
    rw [isComplete, complete.sub]
    rfl
  rcases exists_steps_scanning present (show sub ≤ 4 by omega) with ⟨state, begun, scanning⟩
  rcases scanning.probes answers subLt (Nat.le_refl 32) with
    ⟨reached, probes, known⟩
  have requests := nextRequest_confirm known.sub subLt known.bit
  have fields := encodeFastscan_fields reached.1.id[sub] 0 (UInt8.ofNat sub)
    ((UInt8.ofNat sub + 1) &&& 3)
  have confirms : IsConfirm _ := ⟨fields.1, fields.2.2.1, by
    rw [fields.2.2.2.1, fields.2.2.2.2]
    exact confirm_fields ⟨sub, subLt⟩⟩
  have answered := confirmed _ final ends isComplete complete.found _ reached _
    (begun.trans probes) requests confirms
  rw [show 33 * sub + 1 + 32 = 33 * (sub + 1) by omega, missed] at answered
  cases answered

/-- The master reports an address only after four answered confirmations exactly
when nobody answers the initial probe or the answers to requests 33, 66, 99 and
132, counted from 0, are all positive: what the confirmations draw is ignored. -/
theorem confirmsAnswered_iff (answers : Nat → Bool) :
    ConfirmsAnswered answers ↔
      answers 0 = false ∨ (answers 33 = true ∧ answers 66 = true ∧ answers 99 = true ∧
        answers 132 = true) := by
  constructor
  · intro confirmed
    cases present : answers 0 with
    | false => exact .inl rfl
    | true =>
        have answered : ∀ sub, sub < 4 → answers (33 * (sub + 1)) = true := by
          intro sub subLt
          by_contra missed
          exact not_confirmsAnswered present subLt (by simpa using missed) confirmed
        exact .inr ⟨answered 0 (by decide), answered 1 (by decide), answered 2 (by decide),
          answered 3 (by decide)⟩
  · intro condition requests final _ _ _ position current req steps next confirms
    rcases position_of_confirm (stands_of_steps steps) next confirms with
      ⟨present, sub, subLt, rfl⟩
    rcases condition with missed | ⟨first, second, third, fourth⟩
    · rw [present] at missed
      cases missed
    · interval_cases sub
      · exact first
      · exact second
      · exact third
      · exact fourth

/-- A node that answers the initial probe and then leaves the bus is reported. -/
theorem departed_node_reported :
    ¬ ConfirmsAnswered fun position => decide (position = 0) :=
  not_confirmsAnswered rfl (show 0 < 4 by decide) rfl

end CanOpen.Lss
