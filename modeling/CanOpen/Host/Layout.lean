import CanOpen.Host.Parsing

/-! # The layout of a data sheet

A file declares sections and assigns values to their keys. What is parsed from it is the last value
of every key, wherever in the file it is assigned, and nothing of how the file is laid out.
-/

namespace CanOpen.Eds

/-! ## What a file declares -/

inductive Statement where
  | header (name : Text)
  | assignment (key value : Text)
  deriving DecidableEq

/-- The statement of a line. Blank lines, comments and lines without an equals sign have none. -/
def statementOf (line : Text) : Option Statement :=
  let line := Text.trim line
  if line = [] ∨ line.head? = some ';' then none
  else
    match sectionHeader line with
    | some inner => some (.header (Text.toAsciiLowercase (Text.trim inner)))
    | none => (Text.splitOnce ['='] line).map fun parts =>
        .assignment (Text.toAsciiLowercase (Text.trim parts.1)) (Text.trim parts.2)

def statements (text : Text) : List Statement := (Text.lines text).filterMap statementOf

def headers : List Statement → List Text
  | [] => []
  | .header name :: file => name :: headers file
  | .assignment _ _ :: file => headers file

/-- The assignments to the keys of sections: one in front of the first section is to none. -/
def assignments : Option Text → List Statement → List ((Text × Text) × Text)
  | _, [] => []
  | _, .header name :: file => assignments (some name) file
  | none, .assignment _ _ :: file => assignments none file
  | some name, .assignment key value :: file => ((name, key), value) :: assignments (some name) file

def lastValue (assignments : List ((Text × Text) × Text)) (name key : Text) : Option Text :=
  ((assignments.filter fun assignment => assignment.1 = (name, key)).map Prod.snd).getLast?

theorem lastValue_cons (assignment : (Text × Text) × Text)
    (assignments : List ((Text × Text) × Text)) (name key : Text) :
    lastValue (assignment :: assignments) name key =
      (lastValue assignments name key).or
        (if assignment.1 = (name, key) then some assignment.2 else none) := by
  by_cases same : assignment.1 = (name, key)
  · simp only [lastValue, List.filter_cons, same, decide_true, if_true, List.map_cons,
      List.getLast?_cons]
    cases ((assignments.filter fun assignment => assignment.1 = (name, key)).map
      Prod.snd).getLast? <;> rfl
  · simp [lastValue, same]

/-- Two files declare the same: the same sections, and in each the same last values. -/
structure SameDeclarations (text other : Text) : Prop where
  names : ∀ name, name ∈ headers (statements text) ↔ name ∈ headers (statements other)
  values : ∀ name key, lastValue (assignments none (statements text)) name key =
    lastValue (assignments none (statements other)) name key

/-! ## What is parsed -/

/-- The value of a key of a section. -/
def valueAt (sections : Sections) (name key : Text) : Option Text :=
  (sections.lookup name).bind fun fields => fields.lookup key

theorem sections_ext {sections other : Sections}
    (names : ∀ name, (sections.lookup name).isSome ↔ (other.lookup name).isSome)
    (values : ∀ name key, valueAt sections name key = valueAt other name key) :
    sections = other := by
  refine SortedMap.ext_lookup fun name => ?_
  have sameNames := names name
  have sameValues := values name
  unfold valueAt at sameValues
  cases here : sections.lookup name with
  | none =>
      cases there : other.lookup name with
      | none => rfl
      | some fields => simp [here, there] at sameNames
  | some fields =>
      cases there : other.lookup name with
      | none => simp [here, there] at sameNames
      | some others =>
          refine congrArg some (SortedMap.ext_lookup fun key => ?_)
          simpa [here, there] using sameValues key

inductive Enacts (state : Sections × Option Text) : Option Statement → Sections × Option Text → Prop
  | nothing : Enacts state none state
  | header (name : Text) : Enacts state (some (.header name)) (openSection state.1 name, some name)
  | stray (key value : Text) (noSection : state.2 = none) :
      Enacts state (some (.assignment key value)) state
  | assign (key value : Text) {current : Text} {fields : Fields}
      (isCurrent : state.2 = some current) (found : state.1.lookup current = some fields) :
      Enacts state (some (.assignment key value))
        (state.1.insert current (fields.insert key value), state.2)

theorem parseLine_enacts {state next : Sections × Option Text} (isOpen : CurrentOpen state)
    {line : Text} (taken : parseLine state line = pure next) :
    Enacts state (statementOf line) next := by
  unfold parseLine at taken
  unfold statementOf
  by_cases blank : Text.trim line = [] ∨ (Text.trim line).head? = some ';'
  · simp only [if_pos blank] at taken ⊢
    cases taken
    exact .nothing
  · simp only [if_neg blank] at taken ⊢
    cases header : sectionHeader (Text.trim line) with
    | some inner =>
        rw [header] at taken
        cases taken
        exact .header _
    | none =>
        rw [header] at taken
        cases splits : Text.splitOnce ['='] (Text.trim line) with
        | none =>
            have same : pure state = (pure next : Exec _) := by
              rw [← taken, splits]
              cases state.2 <;> rfl
            cases same
            exact .nothing
        | some parts =>
            cases isCurrent : state.2 with
            | none =>
                simp only [splits, isCurrent] at taken
                cases taken
                exact .stray _ _ isCurrent
            | some current =>
                rcases isOpen current isCurrent with ⟨fields, found⟩
                simp only [splits, isCurrent, found, Exec.unwrap_some, pure_bind] at taken
                rw [← isCurrent] at taken
                cases taken
                exact .assign _ _ isCurrent found

theorem lookup_openSection_isSome (sections : Sections) (name other : Text) :
    ((openSection sections name).lookup other).isSome ↔
      (sections.lookup other).isSome ∨ other = name := by
  unfold openSection
  cases found : sections.lookup name with
  | some fields =>
      refine ⟨.inl, fun declared => ?_⟩
      rcases declared with declared | rfl
      · exact declared
      · rw [found, Option.isSome_some]
  | none =>
      rw [SortedMap.lookup_insert]
      by_cases same : other = name
      · simp [same]
      · simp [same]

theorem valueAt_openSection (sections : Sections) (name other key : Text) :
    valueAt (openSection sections name) other key = valueAt sections other key := by
  unfold openSection
  cases found : sections.lookup name with
  | some fields => rfl
  | none =>
      rw [valueAt, SortedMap.lookup_insert]
      by_cases same : other = name
      · simp [valueAt, same, found]
      · simp [valueAt, same]

theorem assign_fields {sections : Sections} {name : Text} {fields : Fields}
    (found : sections.lookup name = some fields) (key value : Text) :
    (∀ other, ((sections.insert name (fields.insert key value)).lookup other).isSome ↔
      (sections.lookup other).isSome) ∧
    ∀ other otherKey, valueAt (sections.insert name (fields.insert key value)) other otherKey =
      (if (name, key) = (other, otherKey) then some value else none).or
        (valueAt sections other otherKey) := by
  refine ⟨fun other => ?_, fun other otherKey => ?_⟩
  · rw [SortedMap.lookup_insert]
    by_cases same : other = name
    · simp [same, found]
    · simp [same]
  · rw [valueAt, valueAt, SortedMap.lookup_insert]
    by_cases same : other = name
    · subst same
      rw [if_pos rfl, Option.bind_some, SortedMap.lookup_insert, found, Option.bind_some]
      by_cases sameKey : otherKey = key
      · simp [sameKey]
      · simp [sameKey, Ne.symm sameKey]
    · simp [same, Ne.symm same]

theorem foldlM_parseLine {state final : Sections × Option Text} (isOpen : CurrentOpen state)
    {lines : List Text} (folds : lines.foldlM parseLine state = pure final) :
    (∀ name, (final.1.lookup name).isSome ↔
      (state.1.lookup name).isSome ∨ name ∈ headers (lines.filterMap statementOf)) ∧
    ∀ name key, valueAt final.1 name key =
      (lastValue (assignments state.2 (lines.filterMap statementOf)) name key).or
        (valueAt state.1 name key) := by
  induction lines generalizing state with
  | nil =>
      cases folds
      simp [headers, assignments, lastValue]
  | cons line lines induction =>
      rcases parseLine_returns isOpen line with ⟨next, taken, nextOpen⟩
      rw [List.foldlM_cons, taken, pure_bind] at folds
      rcases induction nextOpen folds with ⟨names, values⟩
      have enacts := parseLine_enacts isOpen taken
      rw [List.filterMap_cons]
      generalize statementOf line = statement at enacts ⊢
      cases enacts with
      | nothing => exact ⟨names, values⟩
      | header name =>
          refine ⟨fun other => ?_, fun other key => ?_⟩
          · rw [names, lookup_openSection_isSome, headers, List.mem_cons, or_assoc]
          · rw [values, valueAt_openSection]
            cases state.2 <;> rfl
      | stray key value noSection =>
          rw [noSection] at values ⊢
          exact ⟨names, values⟩
      | assign key value isCurrent found =>
          rcases assign_fields found key value with ⟨sameNames, assigns⟩
          rw [isCurrent] at values ⊢
          refine ⟨fun other => (names other).trans (or_congr_left (sameNames other)), ?_⟩
          intro other otherKey
          rw [values, assigns, assignments, lastValue_cons, Option.or_assoc]

theorem parseIni_declares {text : Text} {sections : Sections}
    (parses : parseIni text = pure sections) :
    (∀ name, (sections.lookup name).isSome ↔ name ∈ headers (statements text)) ∧
    ∀ name key, valueAt sections name key =
      lastValue (assignments none (statements text)) name key := by
  have start : CurrentOpen ((SortedMap.empty : Sections), none) := fun name same => by cases same
  rw [parseIni, Exec.bind_eq_pure_iff] at parses
  rcases parses with ⟨final, folds, ⟨⟩⟩
  rcases foldlM_parseLine start folds with ⟨names, values⟩
  refine ⟨fun name => ?_, fun name key => ?_⟩
  · simpa [statements] using names name
  · simpa [valueAt, statements] using values name key

/-- Two files are read as the same sections exactly if they declare the same sections and assign
the same last values, however they are laid out, and then they are the same data sheet. -/
theorem data_sheets_are_their_declarations (text other : Text) :
    (parseIni text = parseIni other ↔ SameDeclarations text other) ∧
      (SameDeclarations text other → ∀ reals, parse reals text = parse reals other) := by
  rcases parseIni_returns text with ⟨sections, parses⟩
  rcases parseIni_returns other with ⟨others, otherParses⟩
  rcases parseIni_declares parses with ⟨names, values⟩
  rcases parseIni_declares otherParses with ⟨otherNames, otherValues⟩
  have same_iff : parseIni text = parseIni other ↔ SameDeclarations text other := by
    rw [parses, otherParses, Exec.pure_inj]
    constructor
    · rintro rfl
      exact ⟨fun name => (names name).symm.trans (otherNames name),
        fun name key => (values name key).symm.trans (otherValues name key)⟩
    · intro same
      refine sections_ext (fun name => ?_) fun name key => ?_
      · rw [names, otherNames, same.names]
      · rw [values, otherValues, same.values]
  refine ⟨same_iff, fun same reals => ?_⟩
  rw [parse, parse, same_iff.mpr same]

end CanOpen.Eds
