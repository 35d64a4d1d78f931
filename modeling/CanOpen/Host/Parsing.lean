import CanOpen.Foundation.CheckedSum
import CanOpen.Foundation.Listing
import CanOpen.Host.Eds

/-! # What parsing a data sheet computes

Reading the lines never panics. An expression is the sum of its terms, and evaluating it stops
at a partial sum that is no 128-bit integer. The sections are read up to the first that is
rejected.
-/

namespace CanOpen.Eds

variable {reals : RealLiterals} {nodeId : UInt8}

/-! ## Lines -/

def CurrentOpen (state : Sections × Option Text) : Prop :=
  ∀ name, state.2 = some name → ∃ fields, state.1.lookup name = some fields

theorem lookup_openSection (sections : Sections) (name : Text) :
    ∃ fields, (openSection sections name).lookup name = some fields := by
  unfold openSection
  split
  · next fields found => exact ⟨fields, found⟩
  · exact ⟨SortedMap.empty, by rw [SortedMap.lookup_insert, if_pos rfl]⟩

theorem parseLine_returns {state : Sections × Option Text} (isOpen : CurrentOpen state)
    (line : Text) : ∃ next, parseLine state line = pure next ∧ CurrentOpen next := by
  unfold parseLine
  simp only
  split
  · exact ⟨state, rfl, isOpen⟩
  · split
    · next inner _ =>
        refine ⟨_, rfl, fun name same => ?_⟩
        cases same
        exact lookup_openSection state.1 _
    · split
      · next current _ _ isCurrent _ =>
          rcases isOpen current isCurrent with ⟨fields, found⟩
          rw [found, Exec.unwrap_some, pure_bind]
          refine ⟨_, rfl, fun name same => ?_⟩
          cases isCurrent.symm.trans same
          exact ⟨_, by rw [SortedMap.lookup_insert, if_pos rfl]⟩
      · exact ⟨state, rfl, isOpen⟩

theorem parseIni_returns (text : Text) : ∃ sections, parseIni text = pure sections := by
  have start : CurrentOpen (SortedMap.empty, none) := fun name same => by cases same
  have folds : ∃ final, (Text.lines text).foldlM parseLine (SortedMap.empty, none) = pure final ∧
      CurrentOpen final :=
    Exec.foldlM_invariant (fun _ isOpen line _ => parseLine_returns isOpen line) start
  rcases folds with ⟨final, folded, _⟩
  exact ⟨final.1, by rw [parseIni, folded, pure_bind]⟩

/-! ## Expressions -/

def IsI128 (n : Int) : Prop := i128Min ≤ n ∧ n ≤ i128Max

instance (n : Int) : Decidable (IsI128 n) := inferInstanceAs (Decidable (_ ∧ _))

def readTerms (nodeId : UInt8) (terms : List Text) : List (Option Int) :=
  ((terms.map Text.trim).filter fun term => term ≠ []).map (evalTerm nodeId)

def exprTerms (nodeId : UInt8) (text : Text) : List (Option Int) :=
  readTerms nodeId (text.splitOn '+')

def PartialSumsFit (nodeId : UInt8) (text : Text) : Prop :=
  ∀ values : List Int, values.map some <+: exprTerms nodeId text → IsI128 values.sum

def exprValue (nodeId : UInt8) (text : Text) : Option Int :=
  ((exprTerms nodeId text).mapM id).map List.sum

theorem sumTerms_eq (sum : Int) (terms : List Text) :
    sumTerms nodeId sum terms = checkedSum i128Min i128Max sum (readTerms nodeId terms) := by
  induction terms generalizing sum with
  | nil => rfl
  | cons term terms induction =>
      by_cases blank : Text.trim term = []
      · have passed : readTerms nodeId (term :: terms) = readTerms nodeId terms := by
          simp [readTerms, blank]
        rw [sumTerms, if_pos blank, induction, passed]
      · have read : readTerms nodeId (term :: terms) =
            evalTerm nodeId (Text.trim term) :: readTerms nodeId terms := by
          simp [readTerms, blank]
        rw [sumTerms, if_neg blank, read]
        cases evalTerm nodeId (Text.trim term) with
        | none => rfl
        | some value => simp only [induction, checkedSum]

theorem evalIntExpr_eq_pure_iff {text : Text} {result : Option Int} :
    evalIntExpr text nodeId = pure result ↔
      PartialSumsFit nodeId text ∧ exprValue nodeId text = result := by
  rw [evalIntExpr, sumTerms_eq, checkedSum_eq_pure_iff (by decide)]
  simp only [Int.zero_add]
  rfl

theorem evalIntExpr_returns_iff {text : Text} :
    (∃ result, evalIntExpr text nodeId = pure result) ↔ PartialSumsFit nodeId text := by
  simp [evalIntExpr_eq_pure_iff]

/-! ## Values -/

def ReadsExpression (dataType : DataType) : Prop :=
  dataType.isVariable = false ∧ dataType ≠ .real32 ∧ dataType ≠ .real64

theorem variableValue_returns (dataType : DataType) (text : Text) :
    ∃ value, variableValue dataType text = pure value := by
  unfold variableValue
  simp only [Exec.slice_of_le _ (Nat.zero_le _) (Nat.min_le_left _ _), pure_bind]
  split
  · exact ⟨none, rfl⟩
  · split <;> exact ⟨_, rfl⟩

theorem integerOf_eq (text : Text) (nodeId : UInt8) :
    integerOf text nodeId = evalIntExpr text nodeId := by
  unfold integerOf
  split
  · next blank =>
      subst blank
      rfl
  · rfl

theorem valueFromStr_of_readsExpression (reals : RealLiterals) {dataType : DataType}
    (reads : ReadsExpression dataType) (text : Text) (nodeId : UInt8) :
    valueFromStr reals dataType text nodeId =
      evalIntExpr (Text.trim text) nodeId >>= fun n =>
        pure (n.bind (castInteger dataType)) := by
  rcases reads with ⟨fixed, notReal32, notReal64⟩
  rw [← integerOf_eq]
  unfold valueFromStr
  cases dataType <;> first | rfl | contradiction

theorem valueFromStr_returns_iff {dataType : DataType} {text : Text} :
    (∃ value, valueFromStr reals dataType text nodeId = pure value) ↔
      (ReadsExpression dataType → PartialSumsFit nodeId (Text.trim text)) := by
  by_cases reads : ReadsExpression dataType
  · rw [valueFromStr_of_readsExpression reals reads, ← evalIntExpr_returns_iff]
    simp only [Exec.bind_eq_pure_iff, reads, forall_true_left]
    constructor
    · rintro ⟨_, n, returns, _⟩
      exact ⟨n, returns⟩
    · rintro ⟨n, returns⟩
      exact ⟨_, n, returns, rfl⟩
  · have returns : ∃ value, valueFromStr reals dataType text nodeId = pure value := by
      unfold valueFromStr
      simp only
      split
      · exact variableValue_returns dataType _
      · next fixed =>
          split
          · exact ⟨_, rfl⟩
          · exact ⟨_, rfl⟩
          · next notReal32 notReal64 =>
              exact absurd ⟨by simpa using fixed, notReal32, notReal64⟩ reads
    simp [returns, reads]

/-! ## Sections -/

def SectionFits (nodeId : UInt8) (section_ : Text × Fields) : Prop :=
  ∀ address raw, parseObjectSection section_.1 = some address →
    section_.2.lookup "datatype".toList = some raw →
    PartialSumsFit nodeId raw ∧
      ∀ index dataType access, exprValue nodeId raw = some index →
        dataTypeOf index = some dataType → accessOf section_.2 = .ok access →
        ReadsExpression dataType → PartialSumsFit nodeId (Text.trim (rawValue section_.2))

theorem describeObject_returns_iff {name : Text} {fields : Fields} {address : Address}
    {dataType : DataType} :
    (∃ result, describeObject reals nodeId name fields address dataType = pure result) ↔
      ∀ access, accessOf fields = .ok access → ReadsExpression dataType →
        PartialSumsFit nodeId (Text.trim (rawValue fields)) := by
  unfold describeObject
  cases allowed : accessOf fields with
  | error error => simp
  | ok access =>
      simp only [Except.ok.injEq, forall_eq', Exec.bind_eq_pure_iff]
      rw [← @valueFromStr_returns_iff reals]
      constructor
      · rintro ⟨_, value, returns, _⟩
        exact ⟨value, returns⟩
      · rintro ⟨value, returns⟩
        cases value with
        | none => exact ⟨_, none, returns, rfl⟩
        | some value => exact ⟨_, some value, returns, rfl⟩

theorem describeSection_returns_iff {section_ : Text × Fields} :
    (∃ result, describeSection reals nodeId section_.1 section_.2 = pure result) ↔
      SectionFits nodeId section_ := by
  unfold describeSection SectionFits
  cases parseObjectSection section_.1 with
  | none => simp
  | some address =>
      cases section_.2.lookup "datatype".toList with
      | none => simp
      | some raw =>
          simp only [Exec.bind_eq_pure_iff, evalIntExpr_eq_pure_iff]
          constructor
          · rintro ⟨result, value, ⟨fits, isValue⟩, returns⟩ _ _ sameAddress sameRaw
            cases sameAddress
            cases sameRaw
            refine ⟨fits, fun index dataType access hasIndex isType allowed reads => ?_⟩
            cases isValue.symm.trans hasIndex
            simp only [isType, Exec.bind_eq_pure_iff] at returns
            rcases returns with ⟨object, described, _⟩
            exact describeObject_returns_iff.mp ⟨object, described⟩ access allowed reads
          · intro sectionFits
            rcases sectionFits address raw rfl rfl with ⟨fits, valueFits⟩
            cases hasIndex : exprValue nodeId raw with
            | none => exact ⟨_, none, ⟨fits, rfl⟩, rfl⟩
            | some index =>
                cases isType : dataTypeOf index with
                | none => exact ⟨_, some index, ⟨fits, rfl⟩, by simp only [isType]; rfl⟩
                | some dataType =>
                    have returns : ∃ object, describeObject reals nodeId section_.1 section_.2
                        address dataType = pure object :=
                      describeObject_returns_iff.mpr fun access =>
                        valueFits index dataType access hasIndex isType
                    rcases returns with ⟨object, described⟩
                    refine ⟨object.map some, some index, ⟨fits, rfl⟩, ?_⟩
                    simp only [isType, described, pure_bind]

/-! ## The loop over the sections -/

def Accepted (reals : RealLiterals) (nodeId : UInt8) (section_ : Text × Fields) : Prop :=
  ∃ object, describeSection reals nodeId section_.1 section_.2 = pure (.ok object)

def sectionObject (reals : RealLiterals) (nodeId : UInt8) (section_ : Text × Fields) :
    Option ObjectDescription :=
  match describeSection reals nodeId section_.1 section_.2 with
  | .ok (.ok object) => object
  | _ => none

theorem describeSections_append {front : List (Text × Fields)}
    (accepted : ∀ earlier ∈ front, Accepted reals nodeId earlier)
    (objects : List ObjectDescription) (behind : List (Text × Fields)) :
    describeSections reals nodeId objects (front ++ behind) =
      describeSections reals nodeId (objects ++ front.filterMap (sectionObject reals nodeId))
        behind := by
  induction front generalizing objects with
  | nil => rw [List.filterMap_nil, List.append_nil, List.nil_append]
  | cons section_ front induction =>
      rcases accepted section_ List.mem_cons_self with ⟨object, described⟩
      have later := induction fun earlier member =>
        accepted earlier (List.mem_cons_of_mem section_ member)
      have isObject : sectionObject reals nodeId section_ = object := by
        rw [sectionObject, described]
        rfl
      rw [List.cons_append, describeSections, described]
      simp only [pure_bind]
      rw [later, List.append_assoc]
      congr 2
      cases object with
      | none =>
          rw [List.filterMap_cons_none isObject]
          rfl
      | some object =>
          rw [List.filterMap_cons_some isObject]
          rfl

theorem describeSections_of_rejected {section_ : Text × Fields} {error : EdsError}
    (rejects : describeSection reals nodeId section_.1 section_.2 = pure (.error error))
    (objects : List ObjectDescription) (behind : List (Text × Fields)) :
    describeSections reals nodeId objects (section_ :: behind) = pure (.error error) := by
  rw [describeSections, rejects]
  rfl

theorem describeSections_of_accepted {sections : List (Text × Fields)}
    (accepted : ∀ section_ ∈ sections, Accepted reals nodeId section_)
    (objects : List ObjectDescription) :
    describeSections reals nodeId objects sections =
      pure (.ok (objects ++ sections.filterMap (sectionObject reals nodeId))) := by
  have all := describeSections_append accepted objects []
  rwa [List.append_nil] at all

theorem describeSections_eq_pure_of_first {front behind : List (Text × Fields)}
    {section_ : Text × Fields} {objects : List ObjectDescription}
    {result : Except EdsError (List ObjectDescription)}
    (accepted : ∀ earlier ∈ front, Accepted reals nodeId earlier)
    (fails : ¬ Accepted reals nodeId section_)
    (returns : describeSections reals nodeId objects (front ++ section_ :: behind) =
      pure result) :
    ∃ error, describeSection reals nodeId section_.1 section_.2 = pure (.error error) ∧
      result = .error error := by
  rw [describeSections_append accepted, describeSections, Exec.bind_eq_pure_iff] at returns
  rcases returns with ⟨described, isDescribed, returns⟩
  cases described with
  | error error => exact ⟨error, isDescribed, (Exec.pure_inj.mp returns).symm⟩
  | ok object => exact absurd ⟨object, isDescribed⟩ fails

theorem describeSections_eq_ok_iff {sections : List (Text × Fields)}
    {objects all : List ObjectDescription} :
    describeSections reals nodeId objects sections = pure (.ok all) ↔
      (∀ section_ ∈ sections, Accepted reals nodeId section_) ∧
        objects ++ sections.filterMap (sectionObject reals nodeId) = all := by
  rcases forall_or_first (Accepted reals nodeId) sections with
    accepted | ⟨front, section_, behind, rfl, accepted, fails⟩
  · rw [describeSections_of_accepted accepted, Exec.pure_inj, Except.ok.injEq]
    exact (and_iff_right accepted).symm
  · constructor
    · intro returns
      rcases describeSections_eq_pure_of_first accepted fails returns with ⟨_, _, isError⟩
      cases isError
    · rintro ⟨all, _⟩
      exact absurd (all section_ (by simp)) fails

theorem describeSections_eq_error_iff {sections : List (Text × Fields)}
    {objects : List ObjectDescription} {error : EdsError} :
    describeSections reals nodeId objects sections = pure (.error error) ↔
      ∃ front section_ behind, sections = front ++ section_ :: behind ∧
        (∀ earlier ∈ front, Accepted reals nodeId earlier) ∧
        describeSection reals nodeId section_.1 section_.2 = pure (.error error) := by
  constructor
  · intro returns
    rcases forall_or_first (Accepted reals nodeId) sections with
      accepted | ⟨front, section_, behind, rfl, accepted, fails⟩
    · rw [describeSections_of_accepted accepted, Exec.pure_inj] at returns
      cases returns
    · rcases describeSections_eq_pure_of_first accepted fails returns with
        ⟨_, rejects, isError⟩
      cases isError
      exact ⟨front, section_, behind, rfl, accepted, rejects⟩
  · rintro ⟨front, section_, behind, rfl, accepted, rejects⟩
    rw [describeSections_append accepted, describeSections_of_rejected rejects]

theorem describeSections_returns_iff {sections : List (Text × Fields)}
    {objects : List ObjectDescription} :
    (∃ result, describeSections reals nodeId objects sections = pure result) ↔
      ∀ front section_ behind, sections = front ++ section_ :: behind →
        (∀ earlier ∈ front, Accepted reals nodeId earlier) → SectionFits nodeId section_ := by
  constructor
  · rintro ⟨result, returns⟩ front section_ behind rfl accepted
    rw [describeSections_append accepted, describeSections, Exec.bind_eq_pure_iff] at returns
    rcases returns with ⟨described, isDescribed, _⟩
    exact describeSection_returns_iff.mp ⟨described, isDescribed⟩
  · intro fits
    rcases forall_or_first (Accepted reals nodeId) sections with
      accepted | ⟨front, section_, behind, rfl, accepted, fails⟩
    · exact ⟨_, describeSections_of_accepted accepted objects⟩
    · have returns : ∃ described,
          describeSection reals nodeId section_.1 section_.2 = pure described :=
        describeSection_returns_iff.mpr (fits front section_ behind rfl accepted)
      rcases returns with ⟨described, isDescribed⟩
      cases described with
      | ok object => exact absurd ⟨object, isDescribed⟩ fails
      | error error =>
          exact ⟨_, describeSections_eq_error_iff.mpr
            ⟨front, section_, behind, rfl, accepted, isDescribed⟩⟩

/-! ## Parsing -/

theorem parse_eq_pure_iff {text : Text} {result : Except EdsError Eds} :
    parse reals text = pure result ↔
      ∃ sections nodeId described, parseIni text = pure sections ∧
        nodeIdOf sections = pure nodeId ∧
        describeSections reals (nodeId.getD 0) [] sections.entries = pure described ∧
        described.map (fun objects => {
          vendorName := (sections.lookup "deviceinfo".toList).bind fun fields =>
            fields.lookup "vendorname".toList
          productName := (sections.lookup "deviceinfo".toList).bind fun fields =>
            fields.lookup "productname".toList
          nodeId
          objects := objects.insertionSort addressLe }) = result := by
  simp only [parse, Exec.bind_eq_pure_iff]
  constructor
  · rintro ⟨sections, isIni, nodeId, isNode, described, isDescribed, returns⟩
    refine ⟨sections, nodeId, described, isIni, isNode, isDescribed, ?_⟩
    cases described with
    | error error => exact Exec.pure_inj.mp returns
    | ok objects => exact Exec.pure_inj.mp returns
  · rintro ⟨sections, nodeId, described, isIni, isNode, isDescribed, rfl⟩
    refine ⟨sections, isIni, nodeId, isNode, described, isDescribed, ?_⟩
    cases described with
    | error error => rfl
    | ok objects => rfl

theorem nodeIdOf_returns_iff {sections : Sections} :
    (∃ nodeId, nodeIdOf sections = pure nodeId) ↔
      ∀ text, nodeIdText sections = some text → PartialSumsFit 0 text := by
  unfold nodeIdOf
  cases nodeIdText sections with
  | none => simp
  | some text =>
      simp only [Option.some.injEq, forall_eq', ← evalIntExpr_returns_iff,
        Exec.bind_eq_pure_iff]
      constructor
      · rintro ⟨_, n, returns, _⟩
        exact ⟨n, returns⟩
      · rintro ⟨n, returns⟩
        exact ⟨_, n, returns, rfl⟩

/-- The expression of the node id has partial sums that fit, and so have the expressions of
every section that parsing comes to, because those in front of it are accepted. -/
structure ExpressionsFit (reals : RealLiterals) (sections : Sections) : Prop where
  nodeIdFits : ∀ text, nodeIdText sections = some text → PartialSumsFit 0 text
  sectionFits : ∀ nodeId, nodeIdOf sections = pure nodeId →
    ∀ front section_ behind, sections.entries = front ++ section_ :: behind →
      (∀ earlier ∈ front, Accepted reals (nodeId.getD 0) earlier) →
      SectionFits (nodeId.getD 0) section_

/-- Every text has sections, and parsing it returns exactly if no partial sum of an expression
that it comes to overflows. -/
theorem parse_returns_iff (reals : RealLiterals) (text : Text) :
    ∃ sections, parseIni text = pure sections ∧
      ((∃ result, parse reals text = pure result) ↔ ExpressionsFit reals sections) := by
  rcases parseIni_returns text with ⟨sections, isIni⟩
  refine ⟨sections, isIni, ?_⟩
  constructor
  · rintro ⟨result, returns⟩
    rcases parse_eq_pure_iff.mp returns with ⟨_, nodeId, described, isIni', isNode, loops, _⟩
    cases Exec.pure_inj.mp (isIni.symm.trans isIni')
    refine ⟨nodeIdOf_returns_iff.mp ⟨nodeId, isNode⟩, fun other isOther => ?_⟩
    cases Exec.pure_inj.mp (isNode.symm.trans isOther)
    exact describeSections_returns_iff.mp ⟨described, loops⟩
  · rintro ⟨nodeIdFits, sectionFits⟩
    rcases nodeIdOf_returns_iff.mpr nodeIdFits with ⟨nodeId, isNode⟩
    have loops : ∃ described,
        describeSections reals (nodeId.getD 0) [] sections.entries = pure described :=
      describeSections_returns_iff.mpr (sectionFits nodeId isNode)
    rcases loops with ⟨described, isDescribed⟩
    exact ⟨_, parse_eq_pure_iff.mpr
      ⟨sections, nodeId, described, isIni, isNode, isDescribed, rfl⟩⟩

/-- The sum of the greatest integer and one. -/
theorem parse_overflows :
    let expression := "170141183460469231731687303715884105727+1".toList
    ¬ PartialSumsFit 0 expression ∧
      ¬ ∃ result, parse ⟨fun _ => none, fun _ => none⟩
        ("[DeviceComissioning]\nNodeID=".toList ++ expression) = pure result := by
  constructor
  · intro fits
    exact absurd (fits [i128Max, 1] (by decide)) (by decide)
  · rintro ⟨result, returns⟩
    have overflows : parse ⟨fun _ => none, fun _ => none⟩
        ("[DeviceComissioning]\nNodeID=".toList ++
          "170141183460469231731687303715884105727+1".toList) =
        throw .arithmeticOverflow := by decide
    cases overflows.symm.trans returns

end CanOpen.Eds
