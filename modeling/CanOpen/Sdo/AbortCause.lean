import CanOpen.Sdo.Effect

/-! # The causes of aborts

Which abort code the object and the length of the data call for, and for which requests
the server sends another one.
-/

namespace CanOpen.Sdo

namespace SdoServer

variable {N : Nat}

/-! ## What a request is about -/

/-- The object of a request, and the bytes that are sent or declared for it. -/
inductive Subject where
  | read (addr : Address)
  | write (addr : Address) (offered : DataType → Option Nat)
  /-- The bytes received so far with those of this segment, and the size declared. -/
  | segment (addr : Address) (received declared : Nat) (last : Bool)

/-- The bytes that an expedited download sends: without a stated size, what the object
takes of the four in the frame. -/
def inlineOffer (req : SdoPayload) (dataType : DataType) : Nat :=
  if req.get 0 &&& sizeIndicated ≠ 0 then 4 - ((req.get 0 >>> 2) &&& 0x03).toNat
  else min 4 (dataType.fixedSize.getD 4)

def offer (req : SdoPayload) (dataType : DataType) : Option Nat :=
  if req.get 0 &&& expedited ≠ 0 then some (inlineOffer req dataType)
  else if req.get 0 &&& sizeIndicated ≠ 0 then some (wordOf req).toNat
  else none

/-- What a request is about, unless it is out of sequence or about no object. -/
def subject (server : SdoServer) (req : SdoPayload) : Option Subject :=
  let specifier := req.get 0 &&& csMask
  if specifier = ccsDownloadInitiate then some (.write (reqAddress req) (offer req))
  else if specifier = ccsUploadInitiate then some (.read (reqAddress req))
  else if specifier = ccsDownloadSegment then
    match server.transfer with
    | some (.download addr _ buf declared toggle) =>
        if (segmentOf req).toggle = toggle then
          some (.segment addr (buf.toList ++ (segmentOf req).data).length declared
            (segmentOf req).last)
        else none
    | _ => none
  else none

/-! ## The code that is called for -/

def KnownIndex (od : ObjectDictionary N) (index : UInt16) : Prop :=
  ∃ subindex, od.entry ⟨index, subindex⟩ ≠ none

def TooMany (dataType : DataType) (declared : Option Nat) (length : Nat) : Prop :=
  maxStringLen < length ∨ (∃ fixed, dataType.fixedSize = some fixed ∧ fixed < length) ∨
    ∃ size, declared = some size ∧ size < length

def TooFew (dataType : DataType) (declared : Option Nat) (length : Nat) : Prop :=
  (∃ fixed, dataType.fixedSize = some fixed ∧ length < fixed) ∨
    ∃ size, declared = some size ∧ length < size

inductive LengthCause (dataType : DataType) (declared : Option Nat) (length : Nat) :
    SdoAbortCode → Prop
  | high : TooMany dataType declared length →
      LengthCause dataType declared length .dataTypeMismatchLengthHigh
  | low : ¬ TooMany dataType declared length → TooFew dataType declared length →
      LengthCause dataType declared length .dataTypeMismatchLengthLow

inductive MissingCause (od : ObjectDictionary N) (addr : Address) : SdoAbortCode → Prop
  | object : ¬ KnownIndex od addr.index → MissingCause od addr .objectDoesNotExist
  | subIndex : KnownIndex od addr.index → MissingCause od addr .subIndexDoesNotExist

inductive Cause (od : ObjectDictionary N) : Subject → SdoAbortCode → Prop
  | readMissing (addr code) : od.entry addr = none → MissingCause od addr code →
      Cause od (.read addr) code
  | writeMissing (addr offered code) : od.entry addr = none → MissingCause od addr code →
      Cause od (.write addr offered) code
  | writeLength (addr offered entry length code) : od.entry addr = some entry →
      entry.access.isWritable = true → offered entry.value.dataType = some length →
      LengthCause entry.value.dataType none length code → Cause od (.write addr offered) code
  | segmentMissing (addr received declared last code) : od.entry addr = none →
      MissingCause od addr code → Cause od (.segment addr received declared last) code
  | segmentLength (addr received declared last entry code) : od.entry addr = some entry →
      entry.access.isWritable = true →
      LengthCause entry.value.dataType (some declared) received code →
      Cause od (.segment addr received declared last) code

def AbortsWith (response : Option SdoPayload) (word : UInt32) : Prop :=
  ∃ p addr, response = some p ∧ decodeAbort p = .ok (addr, word)

def NamesCause (server : SdoServer) (od : ObjectDictionary N) (req : SdoPayload)
    (response : Option SdoPayload) : Prop :=
  ∀ word about code, AbortsWith response word → server.subject req = some about →
    Cause od about code → word = code.code

inductive Misnamed (od : ObjectDictionary N) : Subject → Prop
  /-- There is another object at the index that is read or written. -/
  | readSubIndex (addr) : od.entry addr = none → KnownIndex od addr.index →
      Misnamed od (.read addr)
  | writeSubIndex (addr offered) : od.entry addr = none → KnownIndex od addr.index →
      Misnamed od (.write addr offered)
  /-- The initiate sends or declares too few bytes. -/
  | short (addr offered entry length) : od.entry addr = some entry →
      entry.access.isWritable = true → offered entry.value.dataType = some length →
      TooFew entry.value.dataType none length → Misnamed od (.write addr offered)
  /-- The object is gone when the transfer ends. -/
  | vanished (addr received declared last) : od.entry addr = none →
      last = true ∨ maxStringLen < received → Misnamed od (.segment addr received declared last)
  /-- The last segment brings too many bytes, or as many as declared but too few. -/
  | unsuitable (addr received declared entry) : od.entry addr = some entry →
      entry.access.isWritable = true → received ≤ maxStringLen →
      TooMany entry.value.dataType (some declared) received ∨
        received = declared ∧ TooFew entry.value.dataType (some declared) received →
      Misnamed od (.segment addr received declared true)

section

variable {server : SdoServer} {od : ObjectDictionary N} {req p : SdoPayload} {addr : Address}
  {about : Subject} {code : SdoAbortCode} {word : UInt32}

theorem code_inj {left right : SdoAbortCode} : left.code = right.code ↔ left = right := by
  cases left <;> cases right <;> decide

theorem abortsWith_abort_iff : AbortsWith (abort addr code) word ↔ word = code.code := by
  have decoded : decodeAbort (encodeAbort addr code) = .ok (addr, code.code) := by
    simp [decodeAbort, encodeAbort]
  constructor
  · rintro ⟨p, other, response, aborts⟩
    cases response
    rw [decoded] at aborts
    cases aborts
    rfl
  · rintro rfl
    exact ⟨_, addr, rfl, decoded⟩

theorem namesCause_of_ne (notAbort : p.get 0 ≠ csAbort) : NamesCause server od req (some p) := by
  rintro word about code ⟨_, addr, response, aborts⟩
  cases response
  simp [decodeAbort, notAbort] at aborts

theorem namesCause_abort_iff (isAbout : server.subject req = some about) :
    NamesCause server od req (abort addr code) ↔ ∀ cause, Cause od about cause → cause = code := by
  constructor
  · intro names cause called
    exact (code_inj.mp (names _ about cause (abortsWith_abort_iff.mpr rfl) isAbout called)).symm
  · intro only word other cause aborts isOther called
    rw [isAbout, Option.some.injEq] at isOther
    subst isOther
    rw [abortsWith_abort_iff.mp aborts, only cause called]

theorem namesCause_of_no_subject (none_ : server.subject req = none)
    (response : Option SdoPayload) : NamesCause server od req response := by
  intro word about code _ isAbout
  rw [none_] at isAbout
  cases isAbout

theorem missing_object_iff :
    (∀ cause, MissingCause od addr cause → cause = .objectDoesNotExist) ↔
      ¬ KnownIndex od addr.index := by
  constructor
  · intro only known
    cases only _ (.subIndex known)
  · rintro unknown cause (- | known)
    · rfl
    · exact absurd known unknown

theorem missing_exists (od : ObjectDictionary N) (addr : Address) :
    MissingCause od addr .objectDoesNotExist ∨ MissingCause od addr .subIndexDoesNotExist := by
  by_cases known : KnownIndex od addr.index
  · exact .inr (.subIndex known)
  · exact .inl (.object known)

/-- Without a declared size a length suits a type exactly if it is neither too many nor too
few bytes. -/
theorem accepts_iff_neither {dataType : DataType} {length : Nat} :
    dataType.Accepts length ↔
      ¬ TooMany dataType none length ∧ ¬ TooFew dataType none length := by
  cases dataType <;>
    simp [DataType.Accepts, DataType.fixedSize, TooMany, TooFew, maxStringLen] <;> omega

theorem not_both {dataType : DataType} {length : Nat} (few : TooFew dataType none length) :
    ¬ TooMany dataType none length := by
  cases dataType <;>
    simp [DataType.fixedSize, TooMany, TooFew, maxStringLen] at few ⊢ <;> omega

theorem high_iff {dataType : DataType} {length : Nat} :
    (∀ cause, LengthCause dataType none length cause → cause = .dataTypeMismatchLengthHigh) ↔
      ¬ TooFew dataType none length := by
  constructor
  · intro only few
    cases only _ (.low (not_both few) few)
  · rintro enough cause (- | ⟨-, few⟩)
    · rfl
    · exact absurd few enough

/-! ## Causes by the object -/

section

variable {entry : Entry} {offered : DataType → Option Nat} {received declared : Nat}
  {last : Bool}

theorem cause_read_iff : Cause od (.read addr) code ↔
    od.entry addr = none ∧ MissingCause od addr code := by
  constructor
  · rintro ⟨_, _, absent, called⟩
    exact ⟨absent, called⟩
  · rintro ⟨absent, called⟩
    exact .readMissing addr code absent called

theorem misnamed_read_iff : Misnamed od (.read addr) ↔
    od.entry addr = none ∧ KnownIndex od addr.index := by
  constructor
  · rintro ⟨_, absent, known⟩
    exact ⟨absent, known⟩
  · rintro ⟨absent, known⟩
    exact .readSubIndex addr absent known

theorem cause_write_absent (absent : od.entry addr = none) :
    Cause od (.write addr offered) code ↔ MissingCause od addr code := by
  constructor
  · rintro (_ | ⟨_, _, _, -, called⟩ | ⟨_, _, _, _, _, found, -⟩)
    · exact called
    · rw [absent] at found
      cases found
  · intro called
    exact .writeMissing addr offered code absent called

theorem cause_write_present (present : od.entry addr = some entry) :
    Cause od (.write addr offered) code ↔ entry.access.isWritable = true ∧
      ∃ length, offered entry.value.dataType = some length ∧
        LengthCause entry.value.dataType none length code := by
  constructor
  · rintro (_ | ⟨_, _, _, absent, -⟩ | ⟨_, _, other, length, _, found, writable, offers, called⟩)
    · rw [present] at absent
      cases absent
    · rw [present, Option.some.injEq] at found
      subst found
      exact ⟨writable, length, offers, called⟩
  · rintro ⟨writable, length, offers, called⟩
    exact .writeLength addr offered entry length code present writable offers called

theorem misnamed_write_absent (absent : od.entry addr = none) :
    Misnamed od (.write addr offered) ↔ KnownIndex od addr.index := by
  constructor
  · rintro (_ | ⟨_, _, -, known⟩ | ⟨_, _, _, _, found, -⟩)
    · exact known
    · rw [absent] at found
      cases found
  · intro known
    exact .writeSubIndex addr offered absent known

theorem misnamed_write_present (present : od.entry addr = some entry) :
    Misnamed od (.write addr offered) ↔ entry.access.isWritable = true ∧
      ∃ length, offered entry.value.dataType = some length ∧
        TooFew entry.value.dataType none length := by
  constructor
  · rintro (_ | ⟨_, _, absent, -⟩ | ⟨_, _, other, length, found, writable, offers, few⟩)
    · rw [present] at absent
      cases absent
    · rw [present, Option.some.injEq] at found
      subst found
      exact ⟨writable, length, offers, few⟩
  · rintro ⟨writable, length, offers, few⟩
    exact .short addr offered entry length present writable offers few

theorem cause_segment_absent (absent : od.entry addr = none) :
    Cause od (.segment addr received declared last) code ↔ MissingCause od addr code := by
  constructor
  · rintro (_ | _ | _ | ⟨_, _, _, _, _, -, called⟩ | ⟨_, _, _, _, _, _, found, -⟩)
    · exact called
    · rw [absent] at found
      cases found
  · intro called
    exact .segmentMissing addr received declared last code absent called

theorem cause_segment_present (present : od.entry addr = some entry) :
    Cause od (.segment addr received declared last) code ↔ entry.access.isWritable = true ∧
      LengthCause entry.value.dataType (some declared) received code := by
  constructor
  · rintro (_ | _ | _ | ⟨_, _, _, _, _, absent, -⟩ | ⟨_, _, _, _, _, _, found, writable, called⟩)
    · rw [present] at absent
      cases absent
    · rw [present, Option.some.injEq] at found
      subst found
      exact ⟨writable, called⟩
  · rintro ⟨writable, called⟩
    exact .segmentLength addr received declared last entry code present writable called

theorem misnamed_segment_absent (absent : od.entry addr = none) :
    Misnamed od (.segment addr received declared last) ↔
      last = true ∨ maxStringLen < received := by
  constructor
  · rintro (_ | _ | _ | ⟨_, _, _, _, -, ends⟩ | ⟨_, _, _, _, found, -⟩)
    · exact ends
    · rw [absent] at found
      cases found
  · intro ends
    exact .vanished addr received declared last absent ends

theorem misnamed_segment_present (present : od.entry addr = some entry) :
    Misnamed od (.segment addr received declared last) ↔ last = true ∧
      entry.access.isWritable = true ∧ received ≤ maxStringLen ∧
      (TooMany entry.value.dataType (some declared) received ∨
        received = declared ∧ TooFew entry.value.dataType (some declared) received) := by
  constructor
  · rintro (_ | _ | _ | ⟨_, _, _, _, absent, -⟩ | ⟨_, _, _, _, found, writable, fits, wrong⟩)
    · rw [present] at absent
      cases absent
    · rw [present, Option.some.injEq] at found
      subst found
      exact ⟨rfl, writable, fits, wrong⟩
  · rintro ⟨rfl, writable, fits, wrong⟩
    exact .unsuitable addr received declared entry present writable fits wrong

end

/-! ## Initiates -/

theorem subject_write (initiate : req.get 0 &&& csMask = ccsDownloadInitiate) :
    server.subject req = some (.write (reqAddress req) (offer req)) := by
  simp only [subject, initiate, if_true]

theorem subject_read (initiate : req.get 0 &&& csMask = ccsUploadInitiate) :
    server.subject req = some (.read (reqAddress req)) := by
  simp only [subject, initiate]
  rfl

theorem subject_segment (segment : req.get 0 &&& csMask = ccsDownloadSegment) :
    server.subject req =
      match server.transfer with
      | some (.download addr _ buf declared toggle) =>
          if (segmentOf req).toggle = toggle then
            some (.segment addr (buf.toList ++ (segmentOf req).data).length declared
              (segmentOf req).last)
          else none
      | _ => none := by
  simp only [subject, segment]
  rfl

theorem inline_suits_iff (req : SdoPayload) (dataType : DataType) :
    (inlineLength req dataType ≤ 4 ∧ dataType.Accepts (inlineLength req dataType)) ↔
      dataType.Accepts (inlineOffer req dataType) := by
  rw [inlineLength, inlineOffer]
  by_cases sized : req.get 0 &&& sizeIndicated ≠ 0
  · rw [if_pos sized, if_pos sized]
    exact and_iff_right (Nat.sub_le 4 _)
  · rw [if_neg sized, if_neg sized]
    cases dataType <;> decide

theorem absent_write_named_iff (initiate : req.get 0 &&& csMask = ccsDownloadInitiate)
    (absent : od.entry (reqAddress req) = none) :
    NamesCause server od req (abort (reqAddress req) .objectDoesNotExist) ↔
      ¬ Misnamed od (.write (reqAddress req) (offer req)) := by
  rw [namesCause_abort_iff (subject_write initiate), misnamed_write_absent absent]
  simp only [cause_write_absent absent]
  exact missing_object_iff

theorem refused_length_named_iff {entry : Entry} {length : Nat}
    (initiate : req.get 0 &&& csMask = ccsDownloadInitiate)
    (present : od.entry (reqAddress req) = some entry)
    (writable : entry.access.isWritable = true)
    (offered : offer req entry.value.dataType = some length) :
    NamesCause server od req (abort (reqAddress req) .dataTypeMismatchLengthHigh) ↔
      ¬ Misnamed od (.write (reqAddress req) (offer req)) := by
  rw [namesCause_abort_iff (subject_write initiate), misnamed_write_present present]
  simp only [cause_write_present present, writable, offered, true_and, Option.some.injEq,
    exists_eq_left']
  exact high_iff

theorem quiet_write_named_iff {entry : Entry}
    (initiate : req.get 0 &&& csMask = ccsDownloadInitiate)
    (present : od.entry (reqAddress req) = some entry)
    (quiet : entry.access.isWritable = false ∨ offer req entry.value.dataType = none)
    (code : SdoAbortCode) :
    NamesCause server od req (abort (reqAddress req) code) ↔
      ¬ Misnamed od (.write (reqAddress req) (offer req)) := by
  rw [namesCause_abort_iff (subject_write initiate), misnamed_write_present present]
  simp only [cause_write_present present]
  rcases quiet with protected_ | unsized
  · simp [protected_]
  · simp [unsized]

theorem suitable_write_named_iff {entry : Entry} {length : Nat}
    (present : od.entry (reqAddress req) = some entry)
    (offered : offer req entry.value.dataType = some length)
    (accepts : entry.value.dataType.Accepts length) :
    NamesCause server od req (some (encodeDownloadResponse (reqAddress req))) ↔
      ¬ Misnamed od (.write (reqAddress req) (offer req)) := by
  have confirmed : (encodeDownloadResponse (reqAddress req)).get 0 ≠ csAbort := by
    rw [encodeDownloadResponse, addressed_command]
    decide
  apply iff_of_true (namesCause_of_ne confirmed)
  rw [misnamed_write_present present]
  simp only [offered, Option.some.injEq, exists_eq_left']
  exact fun few => (accepts_iff_neither.mp accepts).2 few.2

theorem write_named_iff (server : SdoServer) (od : ObjectDictionary N)
    (initiate : req.get 0 &&& csMask = ccsDownloadInitiate) :
    ∃ out, server.handle od req = pure out ∧
      (NamesCause server od req out.response ↔
        ¬ Misnamed od (.write (reqAddress req) (offer req))) := by
  rw [handle_downloadInitiate initiate]
  cases present : od.entry (reqAddress req) with
  | none =>
      exact ⟨_, onDownloadInitiate_absent server present, absent_write_named_iff initiate present⟩
  | some entry =>
      cases writable : entry.access.isWritable with
      | false =>
          exact ⟨_, onDownloadInitiate_readOnly server present writable,
            quiet_write_named_iff initiate present (.inl writable) _⟩
      | true =>
          by_cases segmented : req.get 0 &&& expedited = 0
          · refine ⟨_, onDownloadInitiate_segmented server initiate segmented present writable, ?_⟩
            split
            · next unsized =>
                have offered : offer req entry.value.dataType = none := by
                  rw [offer, if_neg (not_not.mpr segmented), if_neg (not_not.mpr unsized)]
                exact quiet_write_named_iff initiate present (.inr offered) _
            · next sized =>
                have offered : offer req entry.value.dataType = some (wordOf req).toNat := by
                  rw [offer, if_neg (not_not.mpr segmented), if_pos sized]
                split
                · next accepts => exact suitable_write_named_iff present offered accepts
                · exact refused_length_named_iff initiate present writable offered
          · refine ⟨_, onDownloadInitiate_expedited server segmented present writable, ?_⟩
            have offered : offer req entry.value.dataType =
                some (inlineOffer req entry.value.dataType) := by
              rw [offer, if_pos segmented]
            simp only [inline_suits_iff]
            split
            · next accepts => exact suitable_write_named_iff present offered accepts
            · exact refused_length_named_iff initiate present writable offered

theorem read_named_iff {out : Handled N} (initiate : req.get 0 &&& csMask = ccsUploadInitiate)
    (handled : server.handle od req = pure out) :
    NamesCause server od req out.response ↔ ¬ Misnamed od (.read (reqAddress req)) := by
  cases present : od.entry (reqAddress req) with
  | none =>
      have missing : od.read (reqAddress req) = .error .objectNotFound := by
        simp only [ObjectDictionary.read, present]
      rw [handle_uploadInitiate initiate] at handled
      simp only [onUploadInitiate, missing, Exec.pure_inj] at handled
      subst handled
      rw [namesCause_abort_iff (subject_read initiate), misnamed_read_iff]
      simp only [cause_read_iff, present, true_and]
      exact missing_object_iff
  | some entry =>
      rw [misnamed_read_iff]
      apply iff_of_true
      · intro word about code _ isAbout called
        rw [subject_read initiate, Option.some.injEq] at isAbout
        subst isAbout
        have absent := (cause_read_iff.mp called).1
        rw [present] at absent
        cases absent
      · rw [present]
        rintro ⟨absent, -⟩
        cases absent

/-! ## Segments -/

section

variable {entry : Entry} {received declared : Nat} {last : Bool} {dataType : DataType}
  {bytes : List UInt8} {ack : SdoPayload} {parked : SdoServer} {out : Handled N}

theorem absent_segment_named_iff
    (isAbout : server.subject req = some (.segment addr received declared last))
    (absent : od.entry addr = none) (ends : last = true ∨ maxStringLen < received)
    (notObject : code ≠ .objectDoesNotExist) (notSubIndex : code ≠ .subIndexDoesNotExist) :
    NamesCause server od req (abort addr code) ↔
      ¬ Misnamed od (.segment addr received declared last) := by
  rw [namesCause_abort_iff isAbout, misnamed_segment_absent absent]
  simp only [cause_segment_absent absent]
  apply iff_of_false
  · intro only
    rcases missing_exists od addr with object | subIndex
    · exact notObject (only _ object).symm
    · exact notSubIndex (only _ subIndex).symm
  · exact not_not.mpr ends

theorem overflow_named_iff
    (isAbout : server.subject req = some (.segment addr received declared last))
    (many : maxStringLen < received) :
    NamesCause server od req (abort addr .dataTypeMismatchLengthHigh) ↔
      ¬ Misnamed od (.segment addr received declared last) := by
  cases present : od.entry addr with
  | none => exact absent_segment_named_iff isAbout present (.inr many) nofun nofun
  | some entry =>
      rw [namesCause_abort_iff isAbout, misnamed_segment_present present]
      simp only [cause_segment_present present]
      apply iff_of_true
      · rintro cause ⟨-, called⟩
        cases called with
        | high => rfl
        | low notMany => exact absurd (.inl many) notMany
      · rintro ⟨-, -, fits, -⟩
        exact absurd many (not_lt.mpr fits)

theorem more_named_iff (notAbort : ack.get 0 ≠ csAbort) (fits : received ≤ maxStringLen) :
    NamesCause server od req (some ack) ↔
      ¬ Misnamed od (.segment addr received declared false) := by
  apply iff_of_true (namesCause_of_ne notAbort)
  cases present : od.entry addr with
  | none =>
      rw [misnamed_segment_absent present]
      rintro (last | many)
      · cases last
      · exact absurd many (not_lt.mpr fits)
  | some entry =>
      rw [misnamed_segment_present present]
      rintro ⟨last, -⟩
      cases last

theorem undeclared_named_iff
    (isAbout : server.subject req = some (.segment addr received declared true))
    (fits : received ≤ maxStringLen) (differs : received ≠ declared) :
    NamesCause server od req (abort addr .dataTypeMismatchLengthLow) ↔
      ¬ Misnamed od (.segment addr received declared true) := by
  cases present : od.entry addr with
  | none => exact absent_segment_named_iff isAbout present (.inl rfl) nofun nofun
  | some entry =>
      rw [namesCause_abort_iff isAbout, misnamed_segment_present present]
      simp only [cause_segment_present present, fits, differs, true_and, false_and, or_false]
      constructor
      · rintro only ⟨writable, many⟩
        cases only _ ⟨writable, .high many⟩
      · rintro notMany cause ⟨writable, called⟩
        cases called with
        | high many => exact absurd ⟨writable, many⟩ notMany
        | low => rfl

theorem unwritten_named_iff
    (isAbout : server.subject req = some (.segment addr declared declared true))
    (fits : declared ≤ maxStringLen) :
    NamesCause server od req (abort addr .general) ↔
      ¬ Misnamed od (.segment addr declared declared true) := by
  cases present : od.entry addr with
  | none => exact absent_segment_named_iff isAbout present (.inl rfl) nofun nofun
  | some entry =>
      rw [namesCause_abort_iff isAbout, misnamed_segment_present present]
      simp only [cause_segment_present present, fits, true_and]
      constructor
      · rintro only ⟨writable, many | few⟩
        · cases only _ ⟨writable, .high many⟩
        · by_cases many : TooMany entry.value.dataType (some declared) declared
          · cases only _ ⟨writable, .high many⟩
          · cases only _ ⟨writable, .low many few⟩
      · rintro suits cause ⟨writable, called⟩
        cases called with
        | high many => exact absurd ⟨writable, .inl many⟩ suits
        | low _ few => exact absurd ⟨writable, .inr few⟩ suits

theorem written_named_iff (notAbort : ack.get 0 ≠ csAbort)
    (present : od.entry addr = some entry) (accepts : entry.value.dataType.Accepts declared) :
    NamesCause server od req (some ack) ↔
      ¬ Misnamed od (.segment addr declared declared true) := by
  apply iff_of_true (namesCause_of_ne notAbort)
  rcases accepts_iff_neither.mp accepts with ⟨notMany, notFew⟩
  rw [misnamed_segment_present present]
  rintro ⟨-, -, -, many | ⟨-, few⟩⟩
  · exact notMany (by simpa [TooMany] using many)
  · exact notFew (by simpa [TooFew] using few)

theorem readOnly_segment_named_iff
    (isAbout : server.subject req = some (.segment addr received declared last))
    {value : Value} (readOnly : od.write addr value = .error .readOnly) :
    NamesCause server od req (abort addr code) ↔
      ¬ Misnamed od (.segment addr received declared last) := by
  have found : ∃ entry, od.entry addr = some entry ∧ entry.access.isWritable = false := by
    unfold ObjectDictionary.write at readOnly
    split at readOnly
    · cases readOnly
    · next entry present =>
        split at readOnly
        · next protected_ => exact ⟨entry, present, by simpa using protected_⟩
        · split at readOnly
          · cases readOnly
          · cases readOnly
  rcases found with ⟨entry, present, protected_⟩
  rw [namesCause_abort_iff isAbout, misnamed_segment_present present]
  simp [cause_segment_present present, protected_]

theorem finish_named_iff
    (isAbout : server.subject req = some (.segment addr bytes.length declared true))
    (fits : bytes.length ≤ maxStringLen) (notAbort : ack.get 0 ≠ csAbort)
    (finished : parked.finishDownload od addr dataType bytes declared ack = pure out) :
    NamesCause server od req out.response ↔
      ¬ Misnamed od (.segment addr bytes.length declared true) := by
  rw [finishDownload_eq, Exec.pure_inj] at finished
  subst finished
  split
  · next complete =>
      subst complete
      split
      · next accepts =>
          split
          · next written writes =>
              rcases ObjectDictionary.write_eq_ok_iff.mp writes with
                ⟨entry, present, writable, sameType, -⟩
              rw [Value.dataType_ofBytes] at sameType
              exact written_named_iff notAbort present (sameType ▸ accepts)
          · next readOnly => exact readOnly_segment_named_iff isAbout readOnly
          · exact unwritten_named_iff isAbout fits
      · exact unwritten_named_iff isAbout fits
  · next differs => exact undeclared_named_iff isAbout fits differs

end

theorem segment_named_iff {out : Handled N}
    (segment : req.get 0 &&& csMask = ccsDownloadSegment)
    (handled : server.handle od req = pure out) :
    NamesCause server od req out.response ↔
      ∀ about, server.subject req = some about → ¬ Misnamed od about := by
  have quiet : server.subject req = none → (NamesCause server od req out.response ↔
      ∀ about, server.subject req = some about → ¬ Misnamed od about) := by
    intro none_
    apply iff_of_true (namesCause_of_no_subject none_ _)
    intro about isAbout
    rw [none_] at isAbout
    cases isAbout
  have sameSubject : server.subject req = _ := subject_segment segment
  rw [handle_downloadSegment segment, onDownloadSegment, decodeDataSegment_eq, if_pos segment,
    pure_bind] at handled
  cases current : server.transfer with
  | none => exact quiet (by rw [sameSubject, current])
  | some transfer =>
      cases transfer with
      | upload => exact quiet (by rw [sameSubject, current])
      | download addr dataType buf declared toggle =>
          by_cases inSequence : (segmentOf req).toggle = toggle
          · have isAbout : server.subject req = some (.segment addr
                (buf.toList ++ (segmentOf req).data).length declared (segmentOf req).last) := by
              rw [sameSubject, current]
              exact if_pos inSequence
            rw [isAbout]
            simp only [Option.some.injEq, forall_eq']
            subst inSequence
            simp only [current, ne_eq, not_true_eq_false, if_false] at handled
            have acknowledged : (encodeDownloadSegmentResponse (segmentOf req).toggle).get 0 ≠
                csAbort := by
              cases (segmentOf req).toggle <;> decide
            cases extends_ : buf.extendFromSlice (segmentOf req).data with
            | none =>
                have many : maxStringLen < (buf.toList ++ (segmentOf req).data).length := by
                  by_contra fits
                  rw [BoundedVec.extendFromSlice, dif_pos (not_lt.mp fits)] at extends_
                  cases extends_
                simp only [extends_, Exec.pure_inj] at handled
                subst handled
                exact overflow_named_iff isAbout many
            | some extended =>
                have content := BoundedVec.extendFromSlice_eq_some_iff.mp extends_
                have fits := extended.length_le
                rw [← content] at isAbout ⊢
                simp only [extends_] at handled
                cases last : (segmentOf req).last with
                | false =>
                    simp only [last, Bool.false_eq_true, if_false, Exec.pure_inj] at handled
                    subst handled
                    exact more_named_iff acknowledged fits
                | true =>
                    simp only [last, if_true] at handled
                    rw [last] at isAbout
                    exact finish_named_iff isAbout fits acknowledged handled
          · apply quiet
            rw [sameSubject, current]
            exact if_neg inSequence

/-- A server names the cause of an abort for all requests but the misnamed ones. -/
theorem causes_named_iff {out : Handled N} (handled : server.handle od req = pure out) :
    NamesCause server od req out.response ↔
      ∀ about, server.subject req = some about → ¬ Misnamed od about := by
  by_cases download : req.get 0 &&& csMask = ccsDownloadInitiate
  · rcases write_named_iff server od download with ⟨result, returns, named⟩
    rw [handled, Exec.pure_inj] at returns
    subst returns
    rw [subject_write download]
    simpa using named
  · by_cases upload : req.get 0 &&& csMask = ccsUploadInitiate
    · rw [subject_read upload]
      simpa using read_named_iff upload handled
    · by_cases segment : req.get 0 &&& csMask = ccsDownloadSegment
      · exact segment_named_iff segment handled
      · have none_ : server.subject req = none := by
          simp [subject, download, upload, segment]
        apply iff_of_true (namesCause_of_no_subject none_ _)
        intro about isAbout
        rw [none_] at isAbout
        cases isAbout

/-- Four bytes for a word are too many, and the server says so. -/
theorem causes_named_long_word :
    let server : SdoServer := .new ⟨5, by decide⟩
    let od : ObjectDictionary 1 :=
      ⟨[(⟨0x2000, 0⟩, ⟨.unsigned16 1, .rw⟩)], by decide, by decide⟩
    let req : SdoPayload := #v[0x23, 0x00, 0x20, 0x00, 1, 2, 3, 4]
    let response := abort ⟨0x2000, 0⟩ .dataTypeMismatchLengthHigh
    server.handle od req = pure ⟨server, od, response⟩ ∧
      (NamesCause server od req response ↔
        ∀ about, server.subject req = some about → ¬ Misnamed od about) :=
  ⟨by rfl, @causes_named_iff 1 (.new ⟨5, by decide⟩)
    ⟨[(⟨0x2000, 0⟩, ⟨.unsigned16 1, .rw⟩)], by decide, by decide⟩
    #v[0x23, 0x00, 0x20, 0x00, 1, 2, 3, 4]
    ⟨.new ⟨5, by decide⟩, ⟨[(⟨0x2000, 0⟩, ⟨.unsigned16 1, .rw⟩)], by decide, by decide⟩,
      abort ⟨0x2000, 0⟩ .dataTypeMismatchLengthHigh⟩ (by rfl)⟩

/-- A missing subindex is reported as a missing object, two bytes for a double word as too
many, and seven bytes where five were declared as too few. -/
theorem causes_misnamed :
    (∃ out, (new ⟨5, by decide⟩).handle
        (⟨[(⟨0x1018, 0⟩, ⟨.unsigned8 4, .ro⟩)], by decide, by decide⟩ : ObjectDictionary 1)
        #v[0x40, 0x18, 0x10, 0x09, 0, 0, 0, 0] = pure out ∧
      ¬ NamesCause (new ⟨5, by decide⟩)
        (⟨[(⟨0x1018, 0⟩, ⟨.unsigned8 4, .ro⟩)], by decide, by decide⟩ : ObjectDictionary 1)
        #v[0x40, 0x18, 0x10, 0x09, 0, 0, 0, 0] out.response) ∧
    (∃ out, (new ⟨5, by decide⟩).handle
        (⟨[(⟨0x2000, 0⟩, ⟨.unsigned32 1, .rw⟩)], by decide, by decide⟩ : ObjectDictionary 1)
        #v[0x2B, 0x00, 0x20, 0x00, 1, 2, 0, 0] = pure out ∧
      ¬ NamesCause (new ⟨5, by decide⟩)
        (⟨[(⟨0x2000, 0⟩, ⟨.unsigned32 1, .rw⟩)], by decide, by decide⟩ : ObjectDictionary 1)
        #v[0x2B, 0x00, 0x20, 0x00, 1, 2, 0, 0] out.response) ∧
    ∃ out, (SdoServer.mk ⟨5, by decide⟩
          (some (.download ⟨0x2000, 0⟩ .visibleString .new 5 false)) none).handle
        (⟨[(⟨0x2000, 0⟩, ⟨.visibleString .new, .rw⟩)], by decide, by decide⟩ :
          ObjectDictionary 1)
        #v[0x01, 1, 2, 3, 4, 5, 6, 7] = pure out ∧
      ¬ NamesCause (SdoServer.mk ⟨5, by decide⟩
          (some (.download ⟨0x2000, 0⟩ .visibleString .new 5 false)) none)
        (⟨[(⟨0x2000, 0⟩, ⟨.visibleString .new, .rw⟩)], by decide, by decide⟩ :
          ObjectDictionary 1)
        #v[0x01, 1, 2, 3, 4, 5, 6, 7] out.response := by
  refine ⟨?_, ?_, ?_⟩
  · refine ⟨_, rfl, ?_⟩
    intro names
    have word := names SdoAbortCode.objectDoesNotExist.code _ _ ⟨_, ⟨0x1018, 9⟩, rfl, by rfl⟩
      (by rfl) (.readMissing ⟨0x1018, 9⟩ _ (by rfl) (.subIndex ⟨0, by decide⟩))
    exact absurd word (by decide)
  · refine ⟨_, rfl, ?_⟩
    intro names
    have word := names SdoAbortCode.dataTypeMismatchLengthHigh.code _ _
      ⟨_, ⟨0x2000, 0⟩, rfl, by rfl⟩ (by rfl)
      (.writeLength ⟨0x2000, 0⟩ _ ⟨.unsigned32 1, .rw⟩ 2 _ (by rfl) (by rfl) (by rfl)
        (.low (not_both (.inl ⟨4, by rfl, by decide⟩)) (.inl ⟨4, by rfl, by decide⟩)))
    exact absurd word (by decide)
  · refine ⟨_, rfl, ?_⟩
    intro names
    have word := names SdoAbortCode.dataTypeMismatchLengthLow.code _ _
      ⟨_, ⟨0x2000, 0⟩, rfl, by rfl⟩ (by rfl)
      (.segmentLength ⟨0x2000, 0⟩ 7 5 true ⟨.visibleString .new, .rw⟩ _ (by rfl) (by rfl)
        (.high (.inr (.inr ⟨5, rfl, by decide⟩))))
    exact absurd word (by decide)

end

end SdoServer

end CanOpen.Sdo
