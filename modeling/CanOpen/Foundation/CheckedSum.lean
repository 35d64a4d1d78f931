import CanOpen.Foundation.Exec
import Mathlib.Algebra.Order.Ring.Int

/-! # Checked sums

Summands, of which some may be missing, are added up one by one to the first that is missing.
The computation panics exactly if a partial sum leaves the range.
-/

namespace CanOpen

def checkedSum (low high sum : Int) : List (Option Int) → Exec (Option Int)
  | [] => pure (some sum)
  | none :: _ => pure none
  | some value :: summands => do
      let sum ← Exec.checkedAdd low high sum value
      checkedSum low high sum summands

section Prefixes

variable {Holds : List Int → Prop} {summands : List (Option Int)}

theorem forall_prefix_nil :
    (∀ values : List Int, values.map some <+: [] → Holds values) ↔ Holds [] := by
  constructor
  · exact fun holds => holds [] List.nil_prefix
  · intro holds values isPrefix
    rwa [List.map_eq_nil_iff.mp (List.prefix_nil.mp isPrefix)]

theorem forall_prefix_none :
    (∀ values : List Int, values.map some <+: none :: summands → Holds values) ↔ Holds [] := by
  constructor
  · exact fun holds => holds [] List.nil_prefix
  · intro holds values isPrefix
    cases values with
    | nil => exact holds
    | cons value values => cases (List.cons_prefix_cons.mp isPrefix).1

theorem forall_prefix_some {value : Int} :
    (∀ values : List Int, values.map some <+: some value :: summands → Holds values) ↔
      Holds [] ∧
        ∀ values : List Int, values.map some <+: summands → Holds (value :: values) := by
  constructor
  · intro holds
    refine ⟨holds [] List.nil_prefix, fun values isPrefix => holds (value :: values) ?_⟩
    exact List.cons_prefix_cons.mpr ⟨rfl, isPrefix⟩
  · rintro ⟨none_, more⟩ values isPrefix
    cases values with
    | nil => exact none_
    | cons first values =>
        rcases List.cons_prefix_cons.mp isPrefix with ⟨same, behind⟩
        cases same
        exact more values behind

end Prefixes

theorem checkedSum_eq_pure_iff {low high sum : Int} {summands : List (Option Int)}
    {result : Option Int} (within : low ≤ sum ∧ sum ≤ high) :
    checkedSum low high sum summands = pure result ↔
      (∀ values : List Int, values.map some <+: summands →
        low ≤ sum + values.sum ∧ sum + values.sum ≤ high) ∧
      (summands.mapM id).map (fun values => sum + values.sum) = result := by
  induction summands generalizing sum with
  | nil =>
      rw [forall_prefix_nil]
      simp [checkedSum, within]
  | cons summand summands induction =>
      cases summand with
      | none =>
          rw [forall_prefix_none]
          simp [checkedSum, within]
      | some value =>
          have total : ((some value :: summands).mapM id).map (fun values => sum + values.sum) =
              (summands.mapM id).map fun values => sum + value + values.sum := by
            rw [List.mapM_cons]
            cases summands.mapM id with
            | none => rfl
            | some values => simp [add_assoc]
          rw [forall_prefix_some, total]
          simp only [checkedSum, Exec.bind_eq_pure_iff, Exec.checkedAdd_eq_pure_iff,
            List.sum_nil, List.sum_cons, add_zero, ← add_assoc]
          constructor
          · rintro ⟨_, ⟨next, rfl⟩, returns⟩
            rcases (induction next).mp returns with ⟨sums, same⟩
            exact ⟨⟨within, sums⟩, same⟩
          · rintro ⟨⟨_, sums⟩, same⟩
            have next : low ≤ sum + value ∧ sum + value ≤ high := by
              simpa using sums [] List.nil_prefix
            exact ⟨sum + value, ⟨next, rfl⟩, (induction next).mpr ⟨sums, same⟩⟩

end CanOpen
