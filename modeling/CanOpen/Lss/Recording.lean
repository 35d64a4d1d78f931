import CanOpen.Lss.Answers

/-! # What a scan records of its answers

A scan keeps of each probe whether it was answered, as one bit of one identity value, and
nothing else.
-/

namespace CanOpen.Lss

open FastscanMaster

variable {answers : Nat → Bool}

def probeOf (sub bit : Nat) : Nat := 1 + 33 * sub + (31 - bit)

theorem probeOf_inj {sub other bit left : Nat} (within : bit < 32) (leftWithin : left < 32)
    (same : probeOf sub bit = probeOf other left) : sub = other ∧ bit = left := by
  unfold probeOf at same
  omega

theorem testBit_or_bit (word : UInt32) {position bit : Nat} (within : position < 32) :
    (word ||| (1 <<< UInt32.ofNat position)).toNat.testBit bit =
      (word.toNat.testBit bit || decide (position = bit)) := by
  have small : word.toNat ||| 2 ^ position < 2 ^ 32 :=
    Nat.or_lt_two_pow word.toNat_lt (Nat.pow_lt_pow_right (by decide) within)
  have added := @BitSearch.ofNat_or_bit word.toNat position within
  rw [UInt32.ofNat_toNat] at added
  rw [added, UInt32.toNat_ofNat', Nat.mod_eq_of_lt small, Nat.testBit_or, Nat.testBit_two_pow]

/-- The bits of the identity values that are set after `position` answers: those whose probe was
not answered. -/
def Records (answers : Nat → Bool) (position : Nat) (id : Vector UInt32 4) : Prop :=
  ∀ sub (within : sub < 4), ∀ bit < 32, (id[sub].toNat.testBit bit = true ↔
    answers 0 = true ∧ probeOf sub bit < position ∧ answers (probeOf sub bit) = false)

theorem records_new (answers : Nat → Bool) (position : Nat)
    (unprobed : answers 0 = false ∨ position ≤ 1) :
    Records answers position FastscanMaster.new.id := by
  intro sub within bit _
  have unset : FastscanMaster.new.id[sub] = 0 := by simp [FastscanMaster.new]
  have behind : 1 ≤ probeOf sub bit := by
    unfold probeOf
    omega
  rw [unset]
  simp only [UInt32.toNat_zero, Nat.zero_testBit, Bool.false_eq_true, false_iff, not_and]
  intro present earlier
  rcases unprobed with missed | early
  · rw [missed] at present
    cases present
  · omega

theorem Records.confirm {position : Nat} {id : Vector UInt32 4}
    (records : Records answers position id)
    (confirms : ∀ sub bit, bit < 32 → probeOf sub bit ≠ position) :
    Records answers (position + 1) id := by
  intro sub within bit bitWithin
  have other := confirms sub bit bitWithin
  rw [records sub within bit bitWithin, Nat.lt_succ_iff_lt_or_eq]
  simp [other]

theorem Records.probe {sub left : Nat} {id : Vector UInt32 4} (present : answers 0 = true)
    (subLt : sub < 4) (leftLt : left < 32)
    (records : Records answers (probeOf sub left) id) :
    Records answers (probeOf sub left + 1) (if answers (probeOf sub left) then id
      else id.set sub (id[sub] ||| (1 <<< UInt32.ofNat left))) := by
  intro other within bit bitWithin
  have before := records other within bit bitWithin
  rw [Nat.lt_succ_iff_lt_or_eq]
  by_cases here : other = sub ∧ bit = left
  · rcases here with ⟨rfl, rfl⟩
    have unset : id[other].toNat.testBit bit = false := by
      rw [← Bool.not_eq_true, before]
      omega
    cases answered : answers (probeOf other bit) with
    | true => simp [unset]
    | false =>
        rw [if_neg Bool.false_ne_true, Vector.getElem_set_self, testBit_or_bit _ bitWithin]
        simp [present]
  · have elsewhere : probeOf other bit ≠ probeOf sub left :=
      fun same => here (probeOf_inj bitWithin leftLt same)
    have kept : (if answers (probeOf sub left) then id
        else id.set sub (id[sub] ||| (1 <<< UInt32.ofNat left)))[other].toNat.testBit bit =
        id[other].toNat.testBit bit := by
      split
      · rfl
      · by_cases sameValue : sub = other
        · subst sameValue
          have otherBit : ¬ left = bit := fun equal => here ⟨rfl, equal.symm⟩
          rw [Vector.getElem_set_self, testBit_or_bit _ leftLt]
          simp [otherBit]
        · rw [Vector.getElem_set_ne _ _ sameValue]
    rw [kept, before]
    simp [elsewhere]

theorem Records.step {position : Nat} {state next : FastscanMaster × Nat}
    (stands : Stands answers position state) (records : Records answers position state.1.id)
    (taken : drive answers state = pure (some next)) :
    Records answers (position + 1) next.1.id := by
  have same : ∀ {master req}, state.1.nextRequest = pure (some req) →
      state.1.onResponse (answers state.2) = pure master → next.1 = master := by
    intro master req requests advanced
    have otherTaken := drive_of_next requests advanced
    rw [taken, Exec.pure_inj, Option.some.injEq] at otherTaken
    rw [otherTaken]
  cases stands with
  | start first begin =>
      subst first begin
      cases present : answers 0 with
      | false =>
          rw [drive_init_false present] at taken
          cases taken
          exact records_new answers 1 (.inl present)
      | true =>
          have advanced : onResponse .new (answers 0) =
              pure { FastscanMaster.new with found := true, bit := bitAt 32 } := by
            rw [present]
            rfl
          rw [same rfl advanced]
          exact records_new answers 1 (.inr (Nat.le_refl 1))
  | nobody missed ended =>
      subst ended
      have requests : nextRequest { FastscanMaster.new with sub := 4 } = pure none :=
        nextRequest_complete rfl
      simp only [drive, requests, pure_bind] at taken
      cases taken
  | scanning sub left present subLt leftLe placed scanning =>
      cases left with
      | zero =>
          have requests := nextRequest_confirm scanning.sub subLt scanning.bit
          have advanced := onResponse_confirm (answers state.2) scanning.sub subLt scanning.bit
          rw [same requests advanced]
          apply records.confirm
          intro other bit bitWithin
          unfold probeOf
          omega
      | succ left =>
          have requests := nextRequest_probe scanning.sub subLt scanning.bit leftLe
          have advanced :=
            onResponse_probe (answers state.2) scanning.sub subLt scanning.bit leftLe
          have probes : position = probeOf sub left := by
            unfold probeOf
            omega
          rw [same requests advanced, scanning.answered]
          subst probes
          exact records.probe present subLt leftLe
  | complete _ scanning =>
      rw [scanning.done] at taken
      cases taken

theorem records_of_steps {position : Nat} {state : FastscanMaster × Nat}
    (steps : Loop.Steps (drive answers) (.new, 0) position state) :
    Records answers position state.1.id := by
  have both := steps.invariant
    (fun position state => Stands answers position state ∧ Records answers position state.1.id)
    ⟨.start rfl rfl, records_new answers 0 (.inr (Nat.zero_le 1))⟩
    fun _ _ _ holds taken => ⟨holds.1.step taken, holds.2.step holds.1 taken⟩
  exact both.2

/-- Whatever it is answered, a scan ends without a panic: after one request if that was not
answered, and after 133 if it was. It has found a node exactly in the second case, and then a bit
of an identity value is set exactly if the request that probed it was not answered. -/
theorem scan_records_answers (answers : Nat → Bool) :
    ∃ final, Loop.Ends (drive answers) (.new, 0) (if answers 0 then 133 else 1) final ∧
      final.1.nextRequest = pure none ∧ final.1.found = answers 0 ∧
      ∀ sub (within : sub < 4), ∀ bit < 32, (final.1.id[sub].toNat.testBit bit = true ↔
        answers 0 = true ∧ answers (1 + 33 * sub + (31 - bit)) = false) := by
  cases present : answers 0 with
  | false =>
      have complete : nextRequest { FastscanMaster.new with sub := 4 } = pure none :=
        nextRequest_complete rfl
      have done : drive answers ({ FastscanMaster.new with sub := 4 }, 1) = pure none := by
        simp only [drive, complete, pure_bind]
      refine ⟨_, (Loop.Steps.one (drive_init_false present)).ends (Loop.ends_of_done done),
        complete, rfl, ?_⟩
      intro sub within bit _
      have unset : FastscanMaster.new.id[sub] = 0 := by simp [FastscanMaster.new]
      simp [unset]
  | true =>
      rcases exists_steps_scanning present (Nat.le_refl 4) with ⟨final, steps, scanning⟩
      refine ⟨final, steps.ends (Loop.ends_of_done scanning.done),
        nextRequest_complete scanning.sub, scanning.found, ?_⟩
      intro sub within bit bitWithin
      have recorded := records_of_steps steps sub within bit bitWithin
      have earlier : probeOf sub bit < 33 * 4 + 1 := by
        unfold probeOf
        omega
      simp only [present, earlier, true_and] at recorded ⊢
      exact recorded

end CanOpen.Lss
