import CanOpen.Sdo.Effect

/-! # What a reply says about the dictionary

A server that refuses a request has changed nothing that can be read or taken. One that
confirms it has written an object exactly if the request completes a download.
-/

namespace CanOpen.Sdo

namespace SdoServer

variable {N : Nat}

def CompletesDownload (req : SdoPayload) : Prop :=
  (req.get 0 &&& csMask = ccsDownloadInitiate ∧ req.get 0 &&& expedited ≠ 0) ∨
    (req.get 0 &&& csMask = ccsDownloadSegment ∧ req.get 0 &&& noMoreSegments ≠ 0)

instance (req : SdoPayload) : Decidable (CompletesDownload req) := by
  unfold CompletesDownload
  infer_instance

/-- The value of one writable entry is replaced by one of its type, and its address is the
one to take. -/
structure WritesEntry (od : ObjectDictionary N) (out : Handled N) (addr : Address)
    (entry : Entry) (value : Value) : Prop where
  present : od.entry addr = some entry
  writable : entry.access.isWritable = true
  sameType : value.dataType = entry.value.dataType
  written : out.od.entry addr = some { entry with value }
  others : ∀ other, other ≠ addr → out.od.entry other = od.entry other
  reported : out.server.takeWrite.1 = some addr

def Untouched (server : SdoServer) (od : ObjectDictionary N) (out : Handled N) : Prop :=
  out.od = od ∧ out.server.takeWrite.1 = server.takeWrite.1

variable {server : SdoServer} {od : ObjectDictionary N} {req : SdoPayload} {out : Handled N}

theorem WritesEntry.of_replace {addr : Address} {entry : Entry} {value : Value}
    (present : od.entry addr = some entry) (writable : entry.access.isWritable = true)
    (sameType : value.dataType = entry.value.dataType)
    (replaced : out.od = od.replace addr { entry with value })
    (reported : out.server.lastWrite = some addr) :
    WritesEntry od out addr entry value where
  present := present
  writable := writable
  sameType := sameType
  written := by rw [replaced, ObjectDictionary.entry_replace_self present]
  others := by
    intro other different
    rw [replaced, ObjectDictionary.entry_replace_of_ne different]
  reported := reported

theorem ne_csAbort {p : SdoPayload} {specifier : UInt8} (carries : p.get 0 &&& csMask = specifier)
    (different : specifier ≠ csAbort) : p.get 0 ≠ csAbort := by
  intro aborts
  rw [aborts] at carries
  exact different (carries.symm.trans (by decide))

theorem encodeDownloadResponse_specifier (addr : Address) :
    (encodeDownloadResponse addr).get 0 &&& csMask = scsDownloadInitiate := by
  rw [encodeDownloadResponse, addressed_command]
  rfl

theorem encodeUploadInitiateSegmentedResponse_specifier (addr : Address) (size : UInt32) :
    (encodeUploadInitiateSegmentedResponse addr size).get 0 &&& csMask = scsUploadInitiate := by
  rw [encodeUploadInitiateSegmentedResponse, addressed_command]
  rfl

theorem encodeDownloadSegmentResponse_specifier (toggle : Bool) :
    (encodeDownloadSegmentResponse toggle).get 0 &&& csMask = scsDownloadSegment := by
  cases toggle <;> rfl

def Refused (out : Handled N) : Prop := ∀ p, out.response = some p → p.get 0 = csAbort

theorem Effect.refused_or_confirmed (effect : Effect server od req out) :
    (Refused out ∧ Untouched server od out) ∨
      ¬ Refused out ∧
        ((CompletesDownload req ∧ ∃ addr entry value, WritesEntry od out addr entry value) ∨
          (¬ CompletesDownload req ∧ Untouched server od out)) := by
  have confirmed : ∀ {p : SdoPayload} {specifier : UInt8}, out.response = some p →
      p.get 0 &&& csMask = specifier → specifier ≠ csAbort → ¬ Refused out := by
    intro p specifier responds carries different refused
    exact ne_csAbort carries different (refused p responds)
  have continues : ∀ {specifier : UInt8}, req.get 0 &&& csMask = specifier →
      specifier ≠ ccsDownloadInitiate → specifier ≠ ccsDownloadSegment →
      ¬ CompletesDownload req := by
    rintro specifier carries notInitiate notSegment (⟨initiate, -⟩ | ⟨segment, -⟩)
    · exact notInitiate (carries.symm.trans initiate)
    · exact notSegment (carries.symm.trans segment)
  cases effect with
  | rejected addr code | dropped addr code =>
      refine .inl ⟨?_, rfl, rfl⟩
      rintro p ⟨⟩
      rfl
  | clientAbort => exact .inl ⟨by simp [Refused], rfl, rfl⟩
  | expeditedWrite entry value initiate inline_ present writable _ _ decoded =>
      subst decoded
      exact .inr ⟨confirmed rfl (encodeDownloadResponse_specifier _) (by decide), .inl
        ⟨.inl ⟨initiate, inline_⟩, _, entry, _,
          .of_replace present writable (Value.dataType_ofBytes _ _) rfl rfl⟩⟩
  | downloadStarted entry initiate segmented =>
      refine .inr ⟨confirmed rfl (encodeDownloadResponse_specifier _) (by decide), .inr
        ⟨?_, rfl, rfl⟩⟩
      rintro (⟨-, inline_⟩ | ⟨segment, -⟩)
      · exact inline_ segmented
      · exact absurd (initiate.symm.trans segment) (by decide)
  | expeditedRead value p initiate reads positive small fields =>
      have command := fields.command (.inr rfl) (by simpa using positive) (by simpa using small)
      exact .inr ⟨confirmed rfl command.1 (by decide), .inr
        ⟨continues initiate (by decide) (by decide), rfl, rfl⟩⟩
  | uploadStarted value data initiate =>
      exact .inr ⟨confirmed rfl (encodeUploadInitiateSegmentedResponse_specifier _ _)
        (by decide), .inr
        ⟨continues initiate (by decide) (by decide), rfl, rfl⟩⟩
  | uploadSegment addr data len pos p segment _ _ carries =>
      exact .inr ⟨confirmed rfl carries (by decide), .inr
        ⟨continues segment (by decide) (by decide), rfl, rfl⟩⟩
  | downloadSegment addr dataType buf extended declared segment current more =>
      refine .inr ⟨confirmed rfl (encodeDownloadSegmentResponse_specifier _) (by decide), .inr
        ⟨?_, rfl, rfl⟩⟩
      rintro (⟨initiate, -⟩ | ⟨-, last⟩)
      · exact absurd (segment.symm.trans initiate) (by decide)
      · simp [segmentOf, last] at more
  | downloadFinished addr dataType buf declared entry bytes segment current last _ _ _ present
      writable sameType =>
      refine .inr ⟨confirmed rfl (encodeDownloadSegmentResponse_specifier _) (by decide), .inl
        ⟨.inr ⟨segment, by simpa [segmentOf] using last⟩, addr, entry, _,
          .of_replace present writable ?_ rfl rfl⟩⟩
      rw [Value.dataType_ofBytes, sameType]

/-- A request that is not answered or answered by an abort changes neither the dictionary
nor the address to take. One that is confirmed writes an entry and reports it exactly if
it is an expedited download or the last segment of a download. -/
theorem reply_tells_effect (handled : server.handle od req = pure out) :
    ((out.response = none ∨ ∃ p, out.response = some p ∧ p.get 0 = csAbort) →
      Untouched server od out) ∧
    ∀ p, out.response = some p → p.get 0 ≠ csAbort →
      (CompletesDownload req → ∃ addr entry value, WritesEntry od out addr entry value) ∧
      (¬ CompletesDownload req → Untouched server od out) := by
  rcases (handle_effect handled).refused_or_confirmed with
    ⟨refused, untouched⟩ | ⟨notRefused, effect⟩
  · refine ⟨fun _ => untouched, ?_⟩
    intro p responds confirms
    exact absurd (refused p responds) confirms
  · constructor
    · rintro (silent | ⟨p, responds, aborts⟩)
      · exact absurd (fun p responds => by cases silent.symm.trans responds) notRefused
      · refine absurd (fun q again => ?_) notRefused
        cases responds.symm.trans again
        exact aborts
    · intro p responds confirms
      rcases effect with ⟨completes, writes⟩ | ⟨continues, untouched⟩
      · exact ⟨fun _ => writes, fun not => absurd completes not⟩
      · exact ⟨fun completes => absurd completes continues, fun _ => untouched⟩

/-- The byte at `0x2000` is written by an expedited download. -/
theorem reply_tells_effect_expedited :
    let server : SdoServer := .new ⟨5, by decide⟩
    let od : ObjectDictionary 1 := ⟨[(⟨0x2000, 0⟩, ⟨.unsigned8 1, .rw⟩)], by decide, by decide⟩
    let req : SdoPayload := #v[0x2F, 0x00, 0x20, 0x00, 0x07, 0, 0, 0]
    ∃ out, server.handle od req = pure out ∧
      out.response = some (encodeDownloadResponse ⟨0x2000, 0⟩) ∧
      ((out.response = none ∨ ∃ p, out.response = some p ∧ p.get 0 = csAbort) →
        Untouched server od out) ∧
      ∀ p, out.response = some p → p.get 0 ≠ csAbort →
        (CompletesDownload req → ∃ addr entry value, WritesEntry od out addr entry value) ∧
        (¬ CompletesDownload req → Untouched server od out) :=
  ⟨⟨⟨⟨5, by decide⟩, none, some ⟨0x2000, 0⟩⟩,
      ⟨[(⟨0x2000, 0⟩, ⟨.unsigned8 7, .rw⟩)], by decide, by decide⟩,
      some (encodeDownloadResponse ⟨0x2000, 0⟩)⟩,
    by rfl, rfl, reply_tells_effect (by rfl)⟩

end SdoServer

end CanOpen.Sdo
