import CanOpen.Sdo.Client

/-! # What a client takes for an answer

The first response to a transaction is judged by its command alone. It is taken for the
answer even if it names another object.
-/

namespace CanOpen.Sdo

/-- A response by which a read completes or goes on: an upload initiate that states its
size, and if it carries the data inline, as many bytes as suit the type. -/
def AnswersRead (dataType : DataType) (resp : SdoPayload) : Prop :=
  resp.get 0 &&& csMask = scsUploadInitiate ∧ resp.get 0 &&& sizeIndicated ≠ 0 ∧
    (resp.get 0 &&& expedited ≠ 0 → dataType.Accepts (inlineCount resp))

def AnswersWrite (resp : SdoPayload) : Prop := resp.get 0 = scsDownloadInitiate

/-- A response that is no abort completes the transaction or draws a further frame only
if it names the object. -/
def OwnAnswer (addr : Address) (resp : SdoPayload) (event : SdoEvent) : Prop :=
  resp.get 0 ≠ csAbort → (∀ code, event ≠ .aborted code) → addressOf resp = addr

theorem AnswersRead.ne_abort {dataType : DataType} {resp : SdoPayload}
    (answers : AnswersRead dataType resp) : resp.get 0 ≠ csAbort := by
  intro abort
  rw [AnswersRead, abort] at answers
  exact absurd answers.1 (by decide)

theorem AnswersWrite.ne_abort {resp : SdoPayload} (answers : AnswersWrite resp) :
    resp.get 0 ≠ csAbort := by
  rw [AnswersWrite] at answers
  rw [answers]
  decide

theorem ownAnswer_of_accepted {addr : Address} {resp : SdoPayload} {event : SdoEvent}
    {answers : Prop} (accepted : (∀ code, event ≠ .aborted code) ↔ answers)
    (notAbort : answers → resp.get 0 ≠ csAbort) :
    OwnAnswer addr resp event ↔ addressOf resp = addr ∨ ¬ answers := by
  rw [OwnAnswer, accepted]
  by_cases holds : answers
  · simp [holds, notAbort holds]
  · simp [holds]

namespace SdoClient

theorem onResponse_uploadInit {client : SdoClient} {dataType : DataType} (resp : SdoPayload)
    (state : client.state = .uploadInit dataType) :
    ∃ after event, client.onResponse resp = pure (after, event) ∧
      ((∀ code, event ≠ .aborted code) ↔ AnswersRead dataType resp) := by
  by_cases abort : resp.get 0 = csAbort
  · refine ⟨{ client with state := .idle }, .aborted (wordOf resp), ?_, ?_⟩
    · simp [onResponse, decodeAbort, abort]
    · have refused : ¬ AnswersRead dataType resp := fun answers => answers.ne_abort abort
      simp [refused]
  · have notAbort := decodeAbort_of_ne abort
    have decoded := decodeUploadExpeditedResponse_returns resp dataType
    simp only [expeditedSized_iff] at decoded
    have segmented := decodeUploadInitiateSegmentedResponse_eq resp
    simp only [onResponse, notAbort, state, onUploadInit, decoded, pure_bind, segmented]
    by_cases sized : resp.get 0 &&& csMask = scsUploadInitiate ∧
        resp.get 0 &&& sizeIndicated ≠ 0
    · rcases sized with ⟨specifier, sized⟩
      by_cases inline_ : resp.get 0 &&& expedited = 0
      · simp [specifier, sized, inline_, AnswersRead]
      · by_cases accepts : dataType.Accepts (inlineCount resp) <;>
          simp [specifier, sized, inline_, accepts, AnswersRead]
    · have refused : ¬ AnswersRead dataType resp := fun answers => sized ⟨answers.1, answers.2.1⟩
      rw [if_neg fun both => sized ⟨both.1, both.2.2⟩,
        if_neg fun both => sized ⟨both.1, both.2.2⟩]
      exact ⟨_, _, rfl, by simp [refused]⟩

theorem onResponse_written {client : SdoClient} (resp : SdoPayload)
    (state : client.state = .downloadExpedited ∨
      ∃ data len, len ≤ maxStringLen ∧ client.state = .downloadInit data len) :
    ∃ after event, client.onResponse resp = pure (after, event) ∧
      ((∀ code, event ≠ .aborted code) ↔ AnswersWrite resp) := by
  by_cases abort : resp.get 0 = csAbort
  · refine ⟨{ client with state := .idle }, .aborted (wordOf resp), ?_, ?_⟩
    · simp [onResponse, decodeAbort, abort]
    · have refused : ¬ AnswersWrite resp := fun answers => answers.ne_abort abort
      simp [refused]
  · have notAbort := decodeAbort_of_ne abort
    rcases state with state | ⟨data, len, fits, state⟩
    · by_cases answers : resp.get 0 = scsDownloadInitiate <;>
        simp [onResponse, notAbort, state, onDownloadExpedited, decodeDownloadResponse, answers,
          AnswersWrite]
    · by_cases answers : resp.get 0 = scsDownloadInitiate
      · rcases sendDownloadSegment_eq { client with state := .idle } data false
          (Nat.zero_le len) fits with ⟨p, sends, -⟩
        simp [onResponse, notAbort, state, onDownloadInit, decodeDownloadResponse, answers,
          AnswersWrite, sends]
      · simp [onResponse, notAbort, state, onDownloadInit, decodeDownloadResponse, answers,
          AnswersWrite]

end SdoClient

/-- The first response is taken for the answer of the object asked for exactly when it
names that object or cannot be an answer at all. -/
theorem ownAnswer_iff (client : SdoClient) (addr : Address) (resp : SdoPayload) :
    (∀ dataType, ∃ after event,
      (client.read addr dataType).1.onResponse resp = pure (after, event) ∧
        (OwnAnswer addr resp event ↔
          addressOf resp = addr ∨ ¬ AnswersRead dataType resp)) ∧
    ∀ value, ∃ started frame after event,
      client.write addr value = pure (started, frame) ∧
        started.onResponse resp = pure (after, event) ∧
        (OwnAnswer addr resp event ↔ addressOf resp = addr ∨ ¬ AnswersWrite resp) := by
  constructor
  · intro dataType
    have state : (client.read addr dataType).1.state = .uploadInit dataType := rfl
    rcases SdoClient.onResponse_uploadInit resp state with ⟨after, event, answered, accepted⟩
    exact ⟨after, event, answered, ownAnswer_of_accepted accepted AnswersRead.ne_abort⟩
  · intro value
    have begins : ∃ started frame, client.write addr value = pure (started, frame) ∧
        (started.state = .downloadExpedited ∨
          ∃ data len, len ≤ maxStringLen ∧ started.state = .downloadInit data len) := by
      by_cases small : 1 ≤ value.size ∧ value.size ≤ 4
      · rcases client.write_expedited addr small.1 small.2 with ⟨p, starts, _⟩
        exact ⟨_, p, starts, .inl rfl⟩
      · rcases client.write_segmented addr small with ⟨data, starts, _⟩
        exact ⟨_, _, starts, .inr ⟨data, value.size, value.size_le, rfl⟩⟩
    rcases begins with ⟨started, frame, starts, state⟩
    rcases SdoClient.onResponse_written resp state with ⟨after, event, answered, accepted⟩
    exact ⟨started, frame, after, event, starts, answered,
      ownAnswer_of_accepted accepted AnswersWrite.ne_abort⟩

/-- A client that reads the device type is given the identity's vendor for it, and one that
writes the heartbeat time takes the confirmation of another write. -/
theorem foreign_answers_accepted :
    (¬ ∀ client addr dataType resp after event,
      (SdoClient.read client addr dataType).1.onResponse resp = pure (after, event) →
        OwnAnswer addr resp event) ∧
    ¬ ∀ client addr value started frame resp after event,
      SdoClient.write client addr value = pure (started, frame) →
        started.onResponse resp = pure (after, event) → OwnAnswer addr resp event := by
  constructor
  · intro own
    have named := own (.new ⟨0x10, by decide⟩) ⟨0x1000, 0⟩ .unsigned32
      #v[0x43, 0x18, 0x10, 0x01, 0x4E, 0x00, 0x00, 0x00] (.new ⟨0x10, by decide⟩)
      (.complete (some (.unsigned32 0x4E))) (by rfl) (by decide) (by simp)
    exact absurd named (by decide)
  · intro own
    have named := own (.new ⟨0x10, by decide⟩) ⟨0x1017, 0⟩ (.unsigned16 100)
      ⟨⟨0x10, by decide⟩, .downloadExpedited⟩ #v[0x2B, 0x17, 0x10, 0x00, 0x64, 0x00, 0x00, 0x00]
      #v[0x60, 0x18, 0x10, 0x01, 0x00, 0x00, 0x00, 0x00] (.new ⟨0x10, by decide⟩)
      (.complete none) (by rfl) (by rfl) (by decide) (by simp)
    exact absurd named (by decide)

end CanOpen.Sdo
