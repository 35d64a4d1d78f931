import CanOpen.Host.Parsing

/-! # A data sheet and the dictionary built from it

Several sections can denote one address. The data sheet answers with the first of them in the
order of the names of the sections, and the dictionary with the last.
-/

namespace CanOpen.Eds

/-! ## Objects with one address -/

def objectsAt (address : Address) (objects : List ObjectDescription) : List ObjectDescription :=
  objects.filter fun object => object.address = address

theorem objectsAt_insertionSort (address : Address) (objects : List ObjectDescription) :
    objectsAt address (objects.insertionSort addressLe) = objectsAt address objects := by
  apply filter_insertionSort
  intro left right leftAt rightAt
  have same : left.address = right.address :=
    (of_decide_eq_true leftAt).trans (of_decide_eq_true rightAt).symm
  exact .inr ⟨congrArg Address.index same, UInt8.le_of_eq (congrArg Address.subindex same)⟩

theorem get_eq (eds : Eds) (address : Address) :
    eds.get address = (objectsAt address eds.objects).head? :=
  List.head?_filter.symm

theorem entry_of_foldlM {N : Nat} {objects : List ObjectDescription} {start od : ObjectDictionary N}
    (builds : objects.foldlM (fun od object =>
      (od.insert object.address object.entry).mapError fun _ => EdsError.tooManyObjects)
      start = .ok od) (address : Address) :
    od.entry address =
      ((objectsAt address objects).map ObjectDescription.entry).getLast?.or
        (start.entry address) := by
  induction objects generalizing start with
  | nil =>
      cases builds
      rfl
  | cons object objects induction =>
      rw [List.foldlM_cons] at builds
      cases inserts : start.insert object.address object.entry with
      | error error =>
          rw [inserts] at builds
          cases builds
      | ok next =>
          rw [inserts] at builds
          rw [induction builds, ObjectDictionary.entry_insert inserts]
          by_cases here : object.address = address
          · have first : objectsAt address (object :: objects) =
                object :: objectsAt address objects := by simp [objectsAt, here]
            rw [first, List.map_cons, List.getLast?_cons, if_pos here.symm]
            cases ((objectsAt address objects).map ObjectDescription.entry).getLast? <;> rfl
          · have passed : objectsAt address (object :: objects) = objectsAt address objects := by
              simp [objectsAt, here]
            rw [passed, if_neg fun equal => here equal.symm]

theorem entry_objectDictionary {N : Nat} {eds : Eds} {od : ObjectDictionary N}
    (builds : objectDictionary N eds = .ok od) (address : Address) :
    od.entry address = ((objectsAt address eds.objects).map ObjectDescription.entry).getLast? := by
  rw [entry_of_foldlM builds]
  exact Option.or_none

/-! ## Agreement -/

/-- The entries that the sections of a file give to an address, in the order of their names. -/
def entriesAt (reals : RealLiterals) (nodeId : UInt8) (sections : Sections) (address : Address) :
    List Entry :=
  (objectsAt address (sections.entries.filterMap (sectionObject reals nodeId))).map
    ObjectDescription.entry

/-- A data sheet and a dictionary built from it agree exactly if the first and the last of the
sections that denote an address always give it the same entry. -/
theorem dictionary_agrees_iff {reals : RealLiterals} {text : Text} {eds : Eds} {N : Nat}
    {od : ObjectDictionary N} (parses : parse reals text = pure (.ok eds))
    (builds : objectDictionary N eds = .ok od) :
    ∃ sections nodeId, parseIni text = pure sections ∧ nodeIdOf sections = pure nodeId ∧
      ((∀ address, od.entry address = (eds.get address).map ObjectDescription.entry) ↔
        ∀ address, (entriesAt reals (nodeId.getD 0) sections address).head? =
          (entriesAt reals (nodeId.getD 0) sections address).getLast?) := by
  rcases parse_eq_pure_iff.mp parses with
    ⟨sections, nodeId, described, isIni, isNode, loops, isSheet⟩
  cases described with
  | error error => cases isSheet
  | ok objects =>
      rcases describeSections_eq_ok_iff.mp loops with ⟨_, rfl⟩
      cases isSheet
      refine ⟨sections, nodeId, isIni, isNode, forall_congr' fun address => ?_⟩
      have sameObjects := objectsAt_insertionSort address
        (sections.entries.filterMap (sectionObject reals (nodeId.getD 0)))
      rw [entry_objectDictionary builds, get_eq, ← List.head?_map]
      simp only [List.nil_append, sameObjects]
      exact eq_comm

/-- Two of the three objects have the same address, and the same entry. -/
theorem dictionary_agrees_twice :
    let reals : RealLiterals := ⟨fun _ => none, fun _ => none⟩
    let text := "[1000]\nDataType=5\nDefaultValue=1\n[1001]\nDataType=5\n".toList ++
      "DefaultValue=7\n[1000sub0]\nDataType=5\nDefaultValue=0x1".toList
    let object (index : UInt16) (value : UInt8) : ObjectDescription :=
      ⟨⟨index, 0⟩, [], .unsigned8, .ro, .unsigned8 value, false⟩
    let eds : Eds := ⟨none, none, none, [object 0x1000 1, object 0x1000 1, object 0x1001 7]⟩
    let od : ObjectDictionary 2 :=
      ⟨[(⟨0x1000, 0⟩, ⟨.unsigned8 1, .ro⟩), (⟨0x1001, 0⟩, ⟨.unsigned8 7, .ro⟩)],
        by decide, by decide⟩
    ∃ sections nodeId, parseIni text = pure sections ∧ nodeIdOf sections = pure nodeId ∧
      ((∀ address, od.entry address = (eds.get address).map ObjectDescription.entry) ↔
        ∀ address, (entriesAt reals (nodeId.getD 0) sections address).head? =
          (entriesAt reals (nodeId.getD 0) sections address).getLast?) := by
  intro reals text object eds od
  exact dictionary_agrees_iff (show parse reals text = pure (.ok eds) by decide)
    (show objectDictionary 2 eds = .ok od by decide)

/-- An object with a section for itself and one for its subindex zero. -/
theorem dictionary_disagrees :
    let reals : RealLiterals := ⟨fun _ => none, fun _ => none⟩
    let text := "[1000]\nDataType=5\nDefaultValue=1\n[1000sub0]\nDataType=5\nDefaultValue=2".toList
    let eds : Eds :=
      ⟨none, none, none, [⟨⟨0x1000, 0⟩, [], .unsigned8, .ro, .unsigned8 1, false⟩,
        ⟨⟨0x1000, 0⟩, [], .unsigned8, .ro, .unsigned8 2, false⟩]⟩
    let od : ObjectDictionary 2 :=
      ⟨[(⟨0x1000, 0⟩, ⟨.unsigned8 2, .ro⟩)], by decide, by decide⟩
    parse reals text = pure (.ok eds) ∧ objectDictionary 2 eds = .ok od ∧
      od.entry ⟨0x1000, 0⟩ = some ⟨.unsigned8 2, .ro⟩ ∧
      (eds.get ⟨0x1000, 0⟩).map ObjectDescription.entry = some ⟨.unsigned8 1, .ro⟩ := by
  decide

end CanOpen.Eds
