import CanOpen.Sdo.Effect

/-! # Segment requests and the values of other objects

Between the initiate and the last segment of a transfer the server looks at no
value of the dictionary. On dictionaries of the same shape a segment request has
the same response, and writes the same value.
-/

namespace CanOpen.Sdo

open ObjectDictionary (SameShape)

variable {N : Nat}

structure Agrees (req : SdoPayload) (left right : Handled N) : Prop where
  server : right.server = left.server
  response : right.response = left.response
  shape : SameShape left.od right.od
  /-- A download that is completed leaves the same entry in both. -/
  written : req.get 0 &&& csMask = ccsDownloadSegment → (segmentOf req).last = true →
    (∀ resp, left.response = some resp → resp.get 0 ≠ csAbort) →
    ∀ addr, left.server.lastWrite = some addr → left.od.entry addr = right.od.entry addr

variable {req : SdoPayload} {left right : ObjectDictionary N}

theorem Agrees.aborted (same : SameShape left right) (server : SdoServer) (addr : Address)
    (code : SdoAbortCode) :
    Agrees req ⟨server, left, SdoServer.abort addr code⟩
      ⟨server, right, SdoServer.abort addr code⟩ := by
  refine ⟨rfl, rfl, same, fun _ _ notAbort => ?_⟩
  exact absurd (addressed_command csAbort addr code.code) (notAbort _ rfl)

namespace SdoServer

variable {server : SdoServer}

theorem finishDownload_agrees (same : SameShape left right) (addr : Address)
    (dataType : DataType) (bytes : List UInt8) (declared : Nat) (ack : SdoPayload) :
    ∃ outLeft outRight,
      server.finishDownload left addr dataType bytes declared ack = pure outLeft ∧
      server.finishDownload right addr dataType bytes declared ack = pure outRight ∧
      Agrees req outLeft outRight := by
  rw [finishDownload_eq, finishDownload_eq]
  by_cases complete : bytes.length = declared
  · by_cases accepts : dataType.Accepts bytes.length
    · simp only [if_pos complete, if_pos accepts]
      cases writes : left.write addr (Value.ofBytes dataType bytes) with
      | error error =>
          rw [same.write_error writes]
          cases error <;> exact ⟨_, _, rfl, rfl, .aborted same _ _ _⟩
      | ok written =>
          rcases same.write_ok writes with ⟨other, otherWrites, sameAfter, sameEntry⟩
          rw [otherWrites]
          refine ⟨_, _, rfl, rfl, rfl, rfl, sameAfter, fun _ _ _ last recorded => ?_⟩
          rw [Option.some.injEq] at recorded
          exact recorded ▸ sameEntry
    · simp only [if_pos complete, if_neg accepts]
      exact ⟨_, _, rfl, rfl, .aborted same _ _ _⟩
  · simp only [if_neg complete]
    exact ⟨_, _, rfl, rfl, .aborted same _ _ _⟩

theorem onDownloadSegment_agrees (server : SdoServer) (same : SameShape left right)
    (segment : req.get 0 &&& csMask = ccsDownloadSegment) :
    ∃ outLeft outRight, server.onDownloadSegment left req = pure outLeft ∧
      server.onDownloadSegment right req = pure outRight ∧ Agrees req outLeft outRight := by
  have decoded : decodeDataSegment req = pure (.ok (segmentOf req)) := by
    rw [decodeDataSegment_eq, if_pos segment]
  rw [onDownloadSegment, onDownloadSegment, decoded, pure_bind, pure_bind]
  cases server.transfer with
  | none => exact ⟨_, _, rfl, rfl, .aborted same _ _ _⟩
  | some transfer =>
      cases transfer with
      | upload => exact ⟨_, _, rfl, rfl, .aborted same _ _ _⟩
      | download addr dataType buf declared toggle =>
          by_cases inSequence : (segmentOf req).toggle = toggle
          · simp only [inSequence, ne_eq, not_true_eq_false, if_false]
            cases buf.extendFromSlice (segmentOf req).data with
            | none => exact ⟨_, _, rfl, rfl, .aborted same _ _ _⟩
            | some extended =>
                cases last : (segmentOf req).last with
                | false =>
                    refine ⟨_, _, rfl, rfl, rfl, rfl, same, fun _ isLast => ?_⟩
                    rw [last] at isLast
                    cases isLast
                | true => exact finishDownload_agrees same _ _ _ _ _
          · simp only [ne_eq, inSequence, not_false_eq_true, if_true]
            exact ⟨_, _, rfl, rfl, .aborted same _ _ _⟩

theorem onUploadSegment_agrees (same : SameShape left right)
    (segment : req.get 0 &&& csMask = ccsUploadSegment) {out : Handled N}
    (handled : server.onUploadSegment left req = pure out) :
    ∃ outRight, server.onUploadSegment right req = pure outRight ∧
      Agrees req out outRight := by
  have agrees : ∀ server response, Agrees req (⟨server, left, response⟩ : Handled N)
      ⟨server, right, response⟩ := by
    intro server response
    refine ⟨rfl, rfl, same, fun download => ?_⟩
    rw [segment] at download
    exact absurd download (by decide)
  unfold onUploadSegment at handled ⊢
  cases current : server.transfer with
  | none =>
      simp only [current, Exec.pure_inj] at handled ⊢
      exact ⟨_, rfl, handled ▸ agrees _ _⟩
  | some transfer =>
      cases transfer with
      | download =>
          simp only [current, Exec.pure_inj] at handled ⊢
          exact ⟨_, rfl, handled ▸ agrees _ _⟩
      | upload addr data len pos toggle =>
          simp only [current] at handled ⊢
          split at handled
          · next outOfSequence =>
              rw [Exec.pure_inj] at handled
              rw [if_pos outOfSequence]
              exact ⟨_, rfl, handled ▸ agrees _ _⟩
          · next inSequence =>
              rw [if_neg inSequence]
              rw [Exec.bind_eq_pure_iff] at handled
              rcases handled with ⟨remaining, counted, handled⟩
              rw [Exec.bind_eq_pure_iff] at handled
              rcases handled with ⟨window, sliced, handled⟩
              rw [Exec.bind_eq_pure_iff] at handled
              rcases handled with ⟨encoded, encodes, handled⟩
              rw [Exec.bind_eq_pure_iff] at handled
              rcases handled with ⟨seg, expected, handled⟩
              simp only [counted, pure_bind, sliced, encodes, expected]
              split at handled
              · rw [Exec.pure_inj] at handled
                next more =>
                  rw [if_pos more]
                  exact ⟨_, rfl, handled ▸ agrees _ _⟩
              · rw [Exec.pure_inj] at handled
                next last =>
                  rw [if_neg last]
                  exact ⟨_, rfl, handled ▸ agrees _ _⟩

def IsSegmentRequest (req : SdoPayload) : Prop :=
  req.get 0 &&& csMask = ccsDownloadSegment ∨ req.get 0 &&& csMask = ccsUploadSegment

theorem handle_agrees (same : SameShape left right) (segment : IsSegmentRequest req)
    {out : Handled N} (handled : server.handle left req = pure out) :
    ∃ outRight, server.handle right req = pure outRight ∧ Agrees req out outRight := by
  rcases segment with download | upload
  · rcases onDownloadSegment_agrees server same download with
      ⟨outLeft, outRight, handledLeft, handledRight, agrees⟩
    rw [handle_downloadSegment download, handledLeft, Exec.pure_inj] at handled
    subst handled
    exact ⟨outRight, by rw [handle_downloadSegment download, handledRight], agrees⟩
  · rw [handle_uploadSegment upload] at handled ⊢
    exact onUploadSegment_agrees same upload handled

end SdoServer

end CanOpen.Sdo
