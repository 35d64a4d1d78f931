import Mathlib.Data.List.Sort

/-! # Sorted maps

Finite maps with ordered keys, as a search tree provides them: what is iterated over comes in
the order of the keys.
-/

namespace CanOpen

structure SortedMap (κ : Type u) (α : Type v) [LT κ] where
  entries : List (κ × α)
  sorted : entries.Pairwise fun left right => left.1 < right.1

namespace SortedMap

variable {κ : Type u} {α : Type v}

def empty [LT κ] : SortedMap κ α := ⟨[], .nil⟩

def lookup [LT κ] [DecidableEq κ] (map : SortedMap κ α) (key : κ) : Option α :=
  (map.entries.find? fun entry => entry.1 = key).map Prod.snd

@[simp] theorem lookup_empty [LT κ] [DecidableEq κ] (key : κ) :
    (empty : SortedMap κ α).lookup key = none := rfl

section Insertion

variable [LT κ] [DecidableLT κ] [DecidableEq κ]

def insertEntry (key : κ) (value : α) : List (κ × α) → List (κ × α)
  | [] => [(key, value)]
  | entry :: entries =>
      if key < entry.1 then (key, value) :: entry :: entries
      else if key = entry.1 then (key, value) :: entries
      else entry :: insertEntry key value entries

theorem mem_insertEntry {key : κ} {value : α} {entries : List (κ × α)} {entry : κ × α}
    (member : entry ∈ insertEntry key value entries) :
    entry = (key, value) ∨ entry ∈ entries := by
  induction entries with
  | nil => exact .inl (List.mem_singleton.mp member)
  | cons head entries induction =>
      unfold insertEntry at member
      split at member
      · exact (List.mem_cons.mp member).imp_right id
      · split at member
        · exact (List.mem_cons.mp member).imp_right (List.mem_cons_of_mem head)
        · rcases List.mem_cons.mp member with rfl | later
          · exact .inr List.mem_cons_self
          · exact (induction later).imp_right (List.mem_cons_of_mem head)

theorem find?_insertEntry (key other : κ) (value : α) (entries : List (κ × α)) :
    ((insertEntry key value entries).find? fun entry => entry.1 = other).map Prod.snd =
      if other = key then some value
      else (entries.find? fun entry => entry.1 = other).map Prod.snd := by
  induction entries with
  | nil => by_cases here : other = key <;> simp [insertEntry, here, eq_comm]
  | cons head entries induction =>
      unfold insertEntry
      split
      · by_cases here : other = key
        · simp [here]
        · simp [here, show ¬ key = other from fun equal => here equal.symm]
      · split
        · next same =>
            by_cases here : other = key
            · simp [here]
            · have elsewhere : ¬ key = other := fun equal => here equal.symm
              simp [here, elsewhere, ← same]
        · next different =>
            by_cases atHead : head.1 = other
            · have here : ¬ other = key := fun equal => different (equal.symm.trans atHead.symm)
              simp [atHead, here]
            · simpa [atHead] using induction

end Insertion

section Ordered

variable [LE κ] [LT κ] [Std.IsLinearOrder κ] [Std.LawfulOrderLT κ] [DecidableLT κ]
  [DecidableEq κ]

theorem insertEntry_sorted (key : κ) (value : α) {entries : List (κ × α)}
    (sorted : entries.Pairwise fun left right => left.1 < right.1) :
    (insertEntry key value entries).Pairwise fun left right => left.1 < right.1 := by
  induction entries with
  | nil => exact List.pairwise_singleton _ _
  | cons head entries induction =>
      rcases List.pairwise_cons.mp sorted with ⟨least, rest⟩
      unfold insertEntry
      split
      · next before =>
          refine List.pairwise_cons.mpr ⟨fun entry member => ?_, sorted⟩
          rcases List.mem_cons.mp member with rfl | later
          · exact before
          · exact Std.lt_trans before (least entry later)
      · next notBefore =>
          split
          · next same =>
              exact List.pairwise_cons.mpr ⟨fun entry member => same ▸ least entry member, rest⟩
          · next different =>
              have behind : head.1 < key := by
                rcases Std.lt_trichotomy key head.1 with before | same | behind
                · exact absurd before notBefore
                · exact absurd same different
                · exact behind
              refine List.pairwise_cons.mpr ⟨fun entry member => ?_, induction rest⟩
              rcases mem_insertEntry member with rfl | later
              · exact behind
              · exact least entry later

/-- The map with a value for a key, instead of any other value for it. -/
def insert (map : SortedMap κ α) (key : κ) (value : α) : SortedMap κ α :=
  ⟨insertEntry key value map.entries, insertEntry_sorted key value map.sorted⟩

theorem lookup_insert (map : SortedMap κ α) (key other : κ) (value : α) :
    (map.insert key value).lookup other = if other = key then some value else map.lookup other :=
  find?_insertEntry key other value map.entries

end Ordered

section Asymmetric

variable [LE κ] [LT κ] [Std.LawfulOrderLT κ] [DecidableEq κ]

theorem mem_entries_iff {map : SortedMap κ α} {key : κ} {value : α} :
    (key, value) ∈ map.entries ↔ map.lookup key = some value := by
  rcases map with ⟨entries, sorted⟩
  simp only [lookup]
  induction entries with
  | nil => simp
  | cons head entries induction =>
      rcases List.pairwise_cons.mp sorted with ⟨least, rest⟩
      rw [List.mem_cons, induction rest]
      by_cases here : head.1 = key
      · have first : ¬ (entries.find? fun entry => entry.1 = key).map Prod.snd = some value := by
          rw [← induction rest]
          intro later
          exact Std.lt_irrefl (here ▸ least _ later)
        simp only [first, or_false, List.find?_cons, here, decide_true, Option.map_some,
          Option.some.injEq]
        constructor
        · rintro rfl
          rfl
        · rintro rfl
          exact Prod.ext here.symm rfl
      · have other : ¬ (key, value) = head := fun equal => here (congrArg Prod.fst equal.symm)
        simp [other, here]

theorem ext_lookup {left right : SortedMap κ α}
    (same : ∀ key, left.lookup key = right.lookup key) : left = right := by
  have asymmetric : Std.Asymm fun one other : κ × α => one.1 < other.1 :=
    ⟨fun one other => Std.Asymm.asymm (r := fun key later : κ => key < later) one.1 other.1⟩
  have members : ∀ entry, entry ∈ left.entries ↔ entry ∈ right.entries := by
    rintro ⟨key, value⟩
    rw [mem_entries_iff, mem_entries_iff, same]
  have entries := left.sorted.eq_of_mem_iff right.sorted members
  rcases left with ⟨_, _⟩
  rcases right with ⟨_, _⟩
  cases entries
  rfl

end Asymmetric

end SortedMap

end CanOpen
