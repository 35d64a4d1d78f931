import CanOpen.Sdo.History

/-! # Initiates and the transfers they leave behind

An initiate that starts a segmented transfer replaces the one in progress. Expedited and
refused initiates do not, so that a download abandoned for one of them can still be
completed by a later segment.
-/

namespace CanOpen.Sdo

variable {N : Nat}

def SdoServer.Downloading (server : SdoServer) : Prop :=
  ∃ addr dataType buf declared toggle,
    server.transfer = some (.download addr dataType buf declared toggle)

/-- The request starts a segmented transfer: a download of a size that suits a writable
object, or an upload of a value that does not fit in one frame. -/
inductive StartsSegmented (od : ObjectDictionary N) (req : SdoPayload) : Prop
  | download (entry : Entry) :
      req.get 0 &&& csMask = ccsDownloadInitiate → req.get 0 &&& expedited = 0 →
      req.get 0 &&& sizeIndicated ≠ 0 →
      od.entry (SdoServer.reqAddress req) = some entry → entry.access.isWritable = true →
      entry.value.dataType.Accepts (wordOf req).toNat → StartsSegmented od req
  | upload (value : Value) :
      req.get 0 &&& csMask = ccsUploadInitiate →
      od.read (SdoServer.reqAddress req) = .ok value →
      ¬ (1 ≤ value.size ∧ value.size ≤ 4) → StartsSegmented od req

/-- The command specifier is that of an initiate, of a download or of an upload. -/
def IsInitiate (req : SdoPayload) : Prop :=
  req.get 0 &&& csMask = ccsDownloadInitiate ∨ req.get 0 &&& csMask = ccsUploadInitiate

def LeavesNoneBehind (host : Host N) (req : SdoPayload) : Prop :=
  IsInitiate req → host.server.Downloading → StartsSegmented host.od req

def LastInitiated (past : List (Request N)) (addr : Address) : Prop :=
  ∃ earlier start between size, past = earlier ++ start :: between ∧
    start.StartsDownload addr size ∧ ∀ request ∈ between, ¬ IsInitiate request.input

def Current (past : List (Request N)) (host : Host N) : Prop :=
  ∀ addr dataType buf declared toggle,
    host.server.transfer = some (.download addr dataType buf declared toggle) →
    LastInitiated past addr

/-! ## One request -/

theorem LastInitiated.pass {past : List (Request N)} {addr : Address} (request : Request N)
    (initiated : LastInitiated past addr) (other : ¬ IsInitiate request.input) :
    LastInitiated (past ++ [request]) addr := by
  rcases initiated with ⟨earlier, start, between, size, rfl, starts, quiet⟩
  refine ⟨earlier, start, between ++ [request], size, by simp, starts, ?_⟩
  rw [List.forall_mem_append, List.forall_mem_singleton]
  exact ⟨quiet, other⟩

theorem LastInitiated.of_initiate {past : List (Request N)} {request : Request N}
    {addr : Address} (initiated : LastInitiated (past ++ [request]) addr)
    (initiate : IsInitiate request.input) : request.specifier = ccsDownloadInitiate := by
  rcases initiated with ⟨earlier, start, between, size, split, starts, quiet⟩
  rcases List.eq_nil_or_concat between with rfl | ⟨before, last, rfl⟩
  · have same := (List.append_inj_right' split rfl)
    cases same
    exact starts.specifier
  · rw [List.concat_eq_append, ← List.cons_append, ← List.append_assoc] at split
    have same := (List.append_inj_right' split rfl)
    cases same
    exact absurd initiate (quiet request (by simp))

theorem ne_abort {p : SdoPayload} {command : UInt8} (carries : p.get 0 = command)
    (different : command ≠ csAbort) (addr : Address) (code : SdoAbortCode) :
    some p ≠ SdoServer.abort addr code := by
  intro equal
  rw [SdoServer.abort, Option.some.injEq] at equal
  rw [equal, encodeAbort, addressed_command] at carries
  exact different carries.symm

theorem StartsSegmented.not_aborted {server : SdoServer} {od : ObjectDictionary N}
    {req : SdoPayload} (starts : StartsSegmented od req) {out : Handled N}
    (handled : server.handle od req = pure out) (addr : Address) (code : SdoAbortCode) :
    out.response ≠ SdoServer.abort addr code := by
  cases starts with
  | download entry initiate segmented sized present writable accepts =>
      rw [SdoServer.handle_downloadInitiate initiate,
        SdoServer.onDownloadInitiate_segmented server initiate segmented present writable,
        if_neg sized, if_pos accepts, Exec.pure_inj] at handled
      subst handled
      exact ne_abort (addressed_command _ _ _) (by decide) addr code
  | upload value initiate reads large =>
      rcases SdoServer.onUploadInitiate_segmented server reads large with ⟨data, begins, -⟩
      rw [SdoServer.handle_uploadInitiate initiate, begins, Exec.pure_inj] at handled
      subst handled
      exact ne_abort (addressed_command _ _ _) (by decide) addr code

theorem starts_of_initiate {request : Request N}
    (taken : request.before.step request.input = pure (request.after, request.output))
    (initiate : IsInitiate request.input)
    (replaces : LeavesNoneBehind request.before request.input) {addr : Address}
    {dataType : DataType} {buf : BoundedVec UInt8 maxStringLen} {declared : Nat} {toggle : Bool}
    (current : request.after.server.transfer =
      some (.download addr dataType buf declared toggle)) :
    request.StartsDownload addr declared := by
  rcases request with ⟨before, req, response, server, od⟩
  have handled : before.server.handle before.od req = pure ⟨server, od, response⟩ :=
    step_eq_pure_iff.mp taken
  have kept : server.transfer = before.server.transfer → StartsSegmented before.od req :=
    fun same => replaces initiate ⟨_, _, _, _, _, same ▸ current⟩
  cases SdoServer.handle_effect handled with
  | rejected addr code => exact absurd rfl ((kept rfl).not_aborted handled addr code)
  | expeditedWrite entry value download inline_ =>
      cases kept rfl with
      | download _ _ segmented => exact absurd segmented inline_
      | upload _ upload => exact absurd (download.symm.trans upload) (by decide)
  | expeditedRead value p upload reads positive small =>
      cases kept rfl with
      | download _ download => exact absurd (download.symm.trans upload) (by decide)
      | upload _ _ readsAgain large =>
          rw [reads, Except.ok.injEq] at readsAgain
          subst readsAgain
          exact absurd ⟨positive, small⟩ large
  | downloadStarted entry download segmented =>
      cases current
      exact ⟨download, segmented, rfl, rfl, rfl⟩
  | uploadSegment _ _ _ _ _ segment | downloadSegment _ _ _ _ _ segment
  | downloadFinished _ _ _ _ _ _ segment =>
      rcases initiate with initiate | initiate
      · exact absurd (segment.symm.trans initiate) (by decide)
      · exact absurd (segment.symm.trans initiate) (by decide)
  | clientAbort | dropped | uploadStarted => cases current

theorem current_step {past : List (Request N)} {host after : Host N} {req : SdoPayload}
    {response : Option SdoPayload} (current : Current past host)
    (replaces : LeavesNoneBehind host req) (taken : host.step req = pure (after, response)) :
    Current (past ++ [⟨host, req, response, after⟩]) after := by
  rcases after with ⟨server, od⟩
  have handled : host.server.handle host.od req = pure ⟨server, od, response⟩ :=
    step_eq_pure_iff.mp taken
  intro addr dataType buf declared toggle inProgress
  by_cases initiate : IsInitiate req
  · have starts := @starts_of_initiate N ⟨host, req, response, server, od⟩ taken initiate
      replaces _ _ _ _ _ inProgress
    exact ⟨past, _, [], declared, rfl, starts, by simp⟩
  · apply LastInitiated.pass _ _ initiate
    cases SdoServer.handle_effect handled with
    | rejected => exact current _ _ _ _ _ inProgress
    | expeditedWrite _ _ download | downloadStarted _ download =>
        exact absurd (.inl download) initiate
    | expeditedRead _ _ upload | uploadStarted _ _ upload =>
        exact absurd (.inr upload) initiate
    | downloadSegment _ _ _ _ _ _ before =>
        cases inProgress
        exact current _ _ _ _ _ before
    | uploadSegment =>
        simp only at inProgress
        split at inProgress <;> cases inProgress
    | clientAbort | dropped | downloadFinished => cases inProgress

/-! ## The whole history -/

/-- As long as every initiate that finds a download in progress starts a transfer that
replaces it, a segment writes only the object of the most recent initiate. -/
theorem segments_write_last_initiated (node : NodeId) (lastWrite : Option Address)
    (od : ObjectDictionary N) (requests : List SdoPayload) :
    ∃ events final,
      Trace.run Host.step ⟨⟨node, none, lastWrite⟩, od⟩ requests = pure (events, final) ∧
      ((∀ event ∈ events, LeavesNoneBehind event.before event.input) →
        ∀ past finish future addr, events = past ++ finish :: future →
          finish.isSegment = true → finish.WritesTo addr → LastInitiated past addr) := by
  rcases run_returns node lastWrite od requests with ⟨events, final, ran⟩
  refine ⟨events, final, ran, fun replaces past finish future addr split isSegment writes => ?_⟩
  have history := Trace.run_while
    (fun event => LeavesNoneBehind event.before event.input) Current
    (by intro addr dataType buf declared toggle inProgress; cases inProgress)
    (fun past event current taken leaves => current_step current leaves taken) ran
  have current : Current past finish.before := by
    apply history.2 past finish future split
    intro event member
    apply replaces event
    rw [split]
    exact List.mem_append_left _ member
  rw [split] at ran
  have taken := (Trace.run_split ran).1
  rcases finishes_of_writesTo taken isSegment writes with ⟨_, _, _, finishes⟩
  exact current _ _ _ _ _ finishes.current

/-- A download of one byte to a string is abandoned for an upload that is refused. The
segment that follows is written to the string all the same. -/
theorem abandoned_download_written :
    let name : Address := ⟨0x2000, 0⟩
    let od : ObjectDictionary 1 := ⟨[(name, ⟨.visibleString .new, .rw⟩)], by simp, by simp⟩
    let requests : List SdoPayload :=
      [#v[0x21, 0x00, 0x20, 0x00, 0x01, 0x00, 0x00, 0x00],
        #v[0x40, 0x00, 0x30, 0x00, 0x00, 0x00, 0x00, 0x00],
        #v[0x0D, 0x41, 0x00, 0x00, 0x00, 0x00, 0x00, 0x00]]
    ∃ events final past finish,
      Trace.run Host.step ⟨⟨⟨5, by decide⟩, none, none⟩, od⟩ requests = pure (events, final) ∧
        events = past ++ [finish] ∧ finish.isSegment = true ∧ finish.WritesTo name ∧
        ¬ LastInitiated past name := by
  refine ⟨_, _, [_, _], _, rfl, rfl, rfl, .inl (by decide), fun initiated => ?_⟩
  have readLast : LastInitiated ([_] ++ [_]) _ := initiated
  exact absurd (readLast.of_initiate (.inr rfl)) (by decide)

end CanOpen.Sdo
