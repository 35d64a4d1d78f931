import CanOpen.Sdo.Effect

/-! # What an expedited download stores

The length of an expedited download comes from its size bits, or from the object if the
frame does not state it. An object of variable length has no size to fall back on.
-/

namespace CanOpen.Sdo

namespace SdoServer

variable {N : Nat}

/-- The value at the object of the request is that of one to four leading data bytes of
the frame. -/
def StoresTransmitted (req : SdoPayload) (entry : Entry) (od : ObjectDictionary N) : Prop :=
  ∃ value, od.entry (reqAddress req) = some { entry with value } ∧
    1 ≤ value.size ∧ value.size ≤ 4 ∧
    Value.decodeLe entry.value.dataType ((req.toList.drop 4).take value.size) =
      pure (.ok value)

def ConfirmsDownload (req : SdoPayload) (out : Handled N) : Prop :=
  out.response = some (encodeDownloadResponse (reqAddress req))

section

variable {server : SdoServer} {od : ObjectDictionary N} {req : SdoPayload} {entry : Entry}

theorem not_confirms_abort (addr : Address) (code : SdoAbortCode) :
    ¬ ConfirmsDownload req ⟨server, od, abort addr code⟩ := by
  intro confirms
  have command := congrArg (Option.map (·.get 0)) confirms
  rw [abort, Option.map_some, Option.map_some, encodeAbort, encodeDownloadResponse,
    addressed_command, addressed_command] at command
  exact absurd command (by decide)

theorem inlineBytes_eq (req : SdoPayload) (dataType : DataType) :
    inlineBytes req dataType = (req.toList.drop 4).take (inlineLength req dataType) := by
  rw [inlineBytes, List.drop_take, Nat.add_sub_cancel_left]

theorem stores_inlineBytes (present : od.entry (reqAddress req) = some entry)
    (short : inlineLength req entry.value.dataType ≤ 4)
    (accepts : entry.value.dataType.Accepts (inlineLength req entry.value.dataType)) :
    StoresTransmitted req entry (od.replace (reqAddress req) { entry with
        value := Value.ofBytes entry.value.dataType (inlineBytes req entry.value.dataType) }) ↔
      1 ≤ inlineLength req entry.value.dataType := by
  have length := length_inlineBytes short
  rw [← length] at accepts
  have size := (Value.size_ofBytes accepts).trans length
  rw [StoresTransmitted, ObjectDictionary.entry_replace_self present]
  constructor
  · rintro ⟨value, same, positive, -⟩
    rw [Option.some.injEq, Entry.mk.injEq] at same
    rwa [← same.1, size] at positive
  · intro positive
    refine ⟨_, rfl, ?_, ?_, ?_⟩
    · rwa [size]
    · rwa [size]
    · rw [size, ← inlineBytes_eq]
      exact Value.decodeLe_eq_ok_iff.mpr ⟨accepts, rfl⟩

/-- At least one byte is inline if the frame states its size, or the object has one. -/
theorem inlineLength_positive_iff {dataType : DataType} :
    1 ≤ inlineLength req dataType ↔
      req.get 0 &&& sizeIndicated ≠ 0 ∨ dataType.fixedSize.isSome = true := by
  rw [inlineLength]
  by_cases sized : req.get 0 &&& sizeIndicated ≠ 0
  · have unused := unusedInline_le (req.get 0)
    rw [if_pos sized]
    constructor
    · intro _
      exact .inl sized
    · intro _
      omega
  · rw [if_neg sized]
    cases dataType <;> simp [sized, DataType.fixedSize]

/-- A confirmed expedited download stores bytes that were transmitted exactly if the frame
states its size or the object has a fixed one. -/
theorem expedited_stores_transmitted_iff (server : SdoServer)
    (initiate : req.get 0 &&& csMask = ccsDownloadInitiate)
    (expedited_ : req.get 0 &&& expedited ≠ 0)
    (present : od.entry (reqAddress req) = some entry)
    (writable : entry.access.isWritable = true) :
    ∃ out, server.handle od req = pure out ∧
      ((ConfirmsDownload req out → StoresTransmitted req entry out.od) ↔
        req.get 0 &&& sizeIndicated ≠ 0 ∨ entry.value.dataType.fixedSize.isSome = true) := by
  rw [handle_downloadInitiate initiate,
    onDownloadInitiate_expedited server expedited_ present writable,
    ← inlineLength_positive_iff]
  refine ⟨_, rfl, ?_⟩
  split
  · next suits =>
      rw [stores_inlineBytes present suits.1 suits.2]
      constructor
      · intro stores
        exact stores rfl
      · intro positive _
        exact positive
  · next unsuitable =>
      constructor
      · intro _
        -- Without a byte the download would have been confirmed.
        by_contra empty
        apply unsuitable
        have zero : inlineLength req entry.value.dataType = 0 := by omega
        rw [inlineLength_positive_iff, not_or] at empty
        rw [zero]
        refine ⟨Nat.zero_le 4, ?_⟩
        rw [DataType.accepts_iff (Nat.zero_le _)]
        intro fixed size
        rw [size] at empty
        exact absurd rfl empty.2
      · intro _ confirms
        exact absurd confirms (not_confirms_abort _ _)

/-- The word at `0x2000` is written by a frame that does not state its size. -/
theorem expedited_stores_transmitted_unsized_word :
    let server : SdoServer := .new ⟨5, by decide⟩
    let od : ObjectDictionary 1 :=
      ⟨[(⟨0x2000, 0⟩, ⟨.unsigned16 1, .rw⟩)], by decide, by decide⟩
    let req : SdoPayload := #v[0x22, 0x00, 0x20, 0x00, 0x07, 0x08, 0, 0]
    ∃ out, server.handle od req = pure out ∧
      ((ConfirmsDownload req out → StoresTransmitted req ⟨.unsigned16 1, .rw⟩ out.od) ↔
        req.get 0 &&& sizeIndicated ≠ 0 ∨ DataType.unsigned16.fixedSize.isSome = true) :=
  @expedited_stores_transmitted_iff 1 ⟨[(⟨0x2000, 0⟩, ⟨.unsigned16 1, .rw⟩)], by decide, by decide⟩
    #v[0x22, 0x00, 0x20, 0x00, 0x07, 0x08, 0, 0] ⟨.unsigned16 1, .rw⟩ (.new ⟨5, by decide⟩)
    (by decide) (by decide) (by decide) (by decide)

/-- A string is replaced by the empty one by a frame that does not state its size. -/
theorem unsized_string_emptied :
    ¬ ∀ (server : SdoServer) (od : ObjectDictionary 1) (req : SdoPayload) (entry : Entry)
      (out : Handled 1), req.get 0 &&& csMask = ccsDownloadInitiate →
      req.get 0 &&& expedited ≠ 0 → od.entry (reqAddress req) = some entry →
      entry.access.isWritable = true → server.handle od req = pure out →
      ConfirmsDownload req out → StoresTransmitted req entry out.od := by
  intro stores
  rcases stores (.new ⟨5, by decide⟩)
    ⟨[(⟨0x2000, 0⟩, ⟨.visibleString ⟨[0x68, 0x69], by decide⟩, .rw⟩)], by decide, by decide⟩
    #v[0x22, 0x00, 0x20, 0x00, 0x68, 0x6F, 0, 0] _
    ⟨⟨⟨5, by decide⟩, none, some ⟨0x2000, 0⟩⟩,
      ⟨[(⟨0x2000, 0⟩, ⟨.visibleString ⟨[], by decide⟩, .rw⟩)], by decide, by decide⟩,
      some (encodeDownloadResponse ⟨0x2000, 0⟩)⟩
    (by decide) (by decide) (by rfl) (by decide) (by rfl) (by rfl) with ⟨value, same, positive, -⟩
  cases same
  exact absurd positive (by decide)

end

end SdoServer

end CanOpen.Sdo
