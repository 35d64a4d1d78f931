import Mathlib.Data.List.Basic
import Mathlib.Data.List.Sort

/-! # Lists by position and by argument

What holds of the items of a list by their positions, the list of the values that some
arguments have under a partial function, what of it one argument decides, and what sorting
keeps.
-/

namespace CanOpen

variable {α β : Type}

theorem getElem?_snoc {Holds : Nat → α → Prop} {items : List α} {item : α}
    (each : ∀ position found, items[position]? = some found → Holds position found)
    (last : Holds items.length item) (position : Nat) (found : α)
    (isFound : (items ++ [item])[position]? = some found) : Holds position found := by
  by_cases earlier : position < items.length
  · rw [List.getElem?_append_left earlier] at isFound
    exact each position found isFound
  · rw [List.getElem?_append_right (Nat.not_lt.mp earlier), List.getElem?_singleton] at isFound
    split at isFound
    · next same =>
        have isLast : position = items.length := by omega
        cases isFound
        exact isLast ▸ last
    · cases isFound

/-- Something holds of all items, or there is a first item that it does not hold of. -/
theorem forall_or_first (Holds : α → Prop) (items : List α) :
    (∀ item ∈ items, Holds item) ∨
      ∃ front item behind, items = front ++ item :: behind ∧
        (∀ earlier ∈ front, Holds earlier) ∧ ¬ Holds item := by
  induction items with
  | nil => exact .inl (List.forall_mem_nil _)
  | cons head items induction =>
      by_cases holds : Holds head
      · rcases induction with all | ⟨front, item, behind, rfl, earlier, fails⟩
        · exact .inl (List.forall_mem_cons.mpr ⟨holds, all⟩)
        · exact .inr ⟨head :: front, item, behind, rfl,
            List.forall_mem_cons.mpr ⟨holds, earlier⟩, fails⟩
      · exact .inr ⟨[], head, items, rfl, List.forall_mem_nil _, holds⟩

/-- The values of the arguments that are related to one, in the order of the
arguments. -/
inductive Listed (Related : α → β → Prop) : List α → List β → Prop
  | nil : Listed Related [] []
  | present {argument : α} {value : β} {arguments : List α} {values : List β} :
      Related argument value → Listed Related arguments values →
      Listed Related (argument :: arguments) (value :: values)
  | absent {argument : α} {arguments : List α} {values : List β} :
      (∀ value, ¬ Related argument value) → Listed Related arguments values →
      Listed Related (argument :: arguments) values

/-- Two lists that agree in front of and behind one place, where either may have a
value of its own. -/
def EqualAround (left right : Option β) (lefts rights : List β) : Prop :=
  ∃ front back, lefts = front ++ left.toList ++ back ∧ rights = front ++ right.toList ++ back

theorem Listed.filterMap {Related : α → β → Prop} {function : α → Option β}
    (decides : ∀ argument value, function argument = some value ↔ Related argument value)
    (arguments : List α) : Listed Related arguments (arguments.filterMap function) := by
  induction arguments with
  | nil => exact .nil
  | cons argument arguments induction =>
      cases found : function argument with
      | none =>
          rw [List.filterMap_cons_none found]
          refine .absent (fun value related => ?_) induction
          rw [(decides argument value).mpr related] at found
          cases found
      | some value =>
          rw [List.filterMap_cons_some found]
          exact .present ((decides argument value).mp found) induction

/-- The place of a value is the number of the arguments in front of its own that have one. -/
theorem getElem?_filterMap_eq_some_iff {function : α → Option β} {arguments : List α}
    {position : Nat} {value : β} :
    (arguments.filterMap function)[position]? = some value ↔
      ∃ place argument, arguments[place]? = some argument ∧ function argument = some value ∧
        (arguments.take place).countP (fun earlier => (function earlier).isSome) = position := by
  induction arguments generalizing position with
  | nil => simp
  | cons head arguments induction =>
      constructor
      · intro found
        cases computed : function head with
        | none =>
            rw [List.filterMap_cons_none computed] at found
            rcases induction.mp found with ⟨place, argument, isArgument, hasValue, count⟩
            exact ⟨place + 1, argument, isArgument, hasValue, by simpa [computed] using count⟩
        | some first =>
            rw [List.filterMap_cons_some computed] at found
            cases position with
            | zero => exact ⟨0, head, rfl, computed.trans found, rfl⟩
            | succ position =>
                rcases induction.mp found with ⟨place, argument, isArgument, hasValue, count⟩
                exact ⟨place + 1, argument, isArgument, hasValue, by simpa [computed] using count⟩
      · rintro ⟨place, argument, isArgument, hasValue, count⟩
        cases place with
        | zero =>
            cases isArgument
            cases count
            rw [List.filterMap_cons_some hasValue]
            rfl
        | succ place =>
            rw [List.take_succ_cons, List.countP_cons] at count
            have later := induction.mpr ⟨place, argument, isArgument, hasValue, rfl⟩
            cases computed : function head with
            | none =>
                rw [List.filterMap_cons_none computed, later.symm]
                congr 1
                simpa [computed] using count.symm
            | some first =>
                rw [List.filterMap_cons_some computed, ← count, computed]
                exact later

theorem equalAround_filterMap {left right : α → Option β} {arguments : List α} {chosen : α}
    (nodup : arguments.Nodup) (member : chosen ∈ arguments)
    (same : ∀ argument ∈ arguments, argument ≠ chosen → left argument = right argument) :
    EqualAround (left chosen) (right chosen) (arguments.filterMap left)
      (arguments.filterMap right) := by
  rcases List.append_of_mem member with ⟨front, back, rfl⟩
  have apart := List.nodup_append.mp nodup
  have sameFront : front.filterMap right = front.filterMap left := by
    apply List.filterMap_congr
    intro argument inFront
    have other : argument ≠ chosen := apart.2.2 argument inFront chosen (by simp)
    exact (same argument (by simp [inFront]) other).symm
  have sameBack : back.filterMap right = back.filterMap left := by
    apply List.filterMap_congr
    intro argument inBack
    have other : argument ≠ chosen := fun equal =>
      (List.nodup_cons.mp apart.2.1).1 (equal ▸ inBack)
    exact (same argument (by simp [inBack]) other).symm
  have middle (function : α → Option β) :
      (front ++ chosen :: back).filterMap function =
        front.filterMap function ++ (function chosen).toList ++ back.filterMap function := by
    cases found : function chosen with
    | none => simp [List.filterMap_append, found]
    | some value => simp [List.filterMap_append, found]
  refine ⟨front.filterMap left, back.filterMap left, middle left, ?_⟩
  rw [middle right, sameFront, sameBack]

theorem filter_insertionSort {related : α → α → Prop} [DecidableRel related] {test : α → Bool}
    (alike : ∀ left right, test left = true → test right = true → related left right)
    (items : List α) : (items.insertionSort related).filter test = items.filter test := by
  have ordered : (items.filter test).Pairwise related :=
    List.pairwise_of_forall_mem_list fun left isLeft right isRight =>
      alike left right (List.mem_filter.mp isLeft).2 (List.mem_filter.mp isRight).2
  have kept : (items.filter test).Sublist ((items.insertionSort related).filter test) := by
    have filtered := (List.sublist_insertionSort ordered List.filter_sublist).filter test
    simpa only [List.filter_filter, Bool.and_self] using filtered
  have sameLength : ((items.insertionSort related).filter test).length =
      (items.filter test).length :=
    ((List.perm_insertionSort related items).filter test).length_eq
  exact (kept.eq_of_length sameLength.symm).symm

/-! ## A partial function on every item -/

theorem mapM_eq_some {action : α → Option β} {value : α → β} {items : List α}
    (returns : ∀ item ∈ items, action item = some (value item)) :
    items.mapM action = some (items.map value) := by
  induction items with
  | nil => rfl
  | cons item items induction =>
      rw [List.mapM_cons, returns item List.mem_cons_self,
        induction fun other member => returns other (List.mem_cons_of_mem _ member)]
      rfl

theorem mapM_eq_none_iff {action : α → Option β} {items : List α} :
    items.mapM action = none ↔ ∃ item ∈ items, action item = none := by
  induction items with
  | nil => simp
  | cons item items induction =>
      rw [List.mapM_cons, List.exists_mem_cons_iff]
      cases first : action item with
      | none => simp
      | some value =>
          cases rest : items.mapM action with
          | none => simpa using induction.mp rest
          | some values => simpa [rest] using induction

end CanOpen
