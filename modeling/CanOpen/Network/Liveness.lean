import CanOpen.Foundation.Fairness
import CanOpen.Network.Sessions
import Mathlib.Order.WithBot

/-! # Every session ends

Under a schedule that always gives each host and each node another turn, every session ends: the
requests that remain, the way that the next one has still to go and the frames ahead of it become
less.
-/

namespace CanOpen

open Sdo (SdoClient SdoEvent SdoPayload SdoServer Exchange Host)

variable {N : Nat}

/-! ## How far a session is from its end -/

def ahead (cobId : UInt16) (frames : List BusFrame) : Nat :=
  (frames.takeWhile fun frame => frame.1 ≠ cobId).length

theorem ahead_cons {cobId : UInt16} {frame : BusFrame} (other : frame.1 ≠ cobId)
    (rest : List BusFrame) : ahead cobId (frame :: rest) = ahead cobId rest + 1 := by
  simp [ahead, other]

theorem ahead_append {cobId : UInt16} {frames : List BusFrame}
    (present : (frames.filter fun frame => frame.1 = cobId) ≠ []) (later : List BusFrame) :
    ahead cobId (frames ++ later) = ahead cobId frames := by
  induction frames with
  | nil => exact absurd rfl present
  | cons frame rest induction =>
      by_cases first : frame.1 = cobId
      · simp [ahead, first]
      · rw [List.filter_cons_of_neg (by simpa using first)] at present
        rw [List.cons_append, ahead_cons first, ahead_cons first, induction present]

inductive Remains (alone : Exchange (Host N)) : WithTop Nat → Prop
  | unbegun : alone.replies = [] → Remains alone ⊤
  | begun (count : Nat) (final : Exchange (Host N)) : alone.replies ≠ [] →
      Loop.Ends (Exchange.turn (Host.serve Host.undisturbed)) alone count final →
      Remains alone count

/-- Where the next request is, with the frames ahead of it, and what brings it further. -/
inductive Stage (origin : Node N) (line : Line N) : Nat × Nat → Own → Prop
  | requested : line.session.awaiting = true → requestsTo origin line.toNode ≠ [] →
      Stage origin line (0, ahead origin.sdo.requestCobId line.toNode) .serve
  | ready (frame : SdoPayload) : line.session.awaiting = false →
      line.session.event = .send frame → Stage origin line (1, 0) .request
  | answered : line.session.awaiting = true → responsesOf origin line.toHost ≠ [] →
      Stage origin line (2, ahead origin.sdo.responseCobId line.toHost) .receive

def Closer : WithTop Nat × Nat × Nat → WithTop Nat × Nat × Nat → Prop :=
  Prod.Lex (· < ·) (Prod.Lex (· < ·) (· < ·))

theorem closer_wellFounded : WellFounded Closer :=
  WellFounded.prod_lex wellFounded_lt (WellFounded.prod_lex wellFounded_lt wellFounded_lt)

/-- A session that goes its way and has not ended, with its distance from the end. -/
def Ranked (origin : Node N) (started : SdoClient) (first : SdoPayload) (line : Line N)
    (rank : WithTop Nat × Nat × Nat) (wanted : Own) : Prop :=
  ∃ od alone, Follows origin started first (fun _ _ => True) od alone line ∧
    Remains alone rank.1 ∧ Stage origin line rank.2 wanted

variable {origin : Node N} {started : SdoClient} {first : SdoPayload} {line after : Line N}
  {alone later : Exchange (Host N)}

theorem Stage.enabled {stage : Nat × Nat} {wanted : Own} (at_ : Stage origin line stage wanted) :
    line.Enables wanted := by
  cases at_ with
  | requested _ present =>
      intro none
      rw [none] at present
      exact present rfl
  | ready frame free sends => exact ⟨⟨frame, sends⟩, free⟩
  | answered awaits present =>
      refine ⟨awaits, fun none => ?_⟩
      rw [none] at present
      exact present rfl

theorem Stage.append {stage : Nat × Nat} {wanted : Own} (at_ : Stage origin line stage wanted)
    (toNode toHost : List BusFrame) :
    Stage origin { line with toNode := line.toNode ++ toNode, toHost := line.toHost ++ toHost }
      stage wanted := by
  cases at_ with
  | requested awaits present =>
      rw [← ahead_append present toNode]
      refine .requested awaits ?_
      rw [requestsTo, List.filter_append]
      exact List.append_ne_nil_of_left_ne_nil present _
  | ready frame free sends => exact .ready frame free sends
  | answered awaits present =>
      rw [← ahead_append present toHost]
      refine .answered awaits ?_
      rw [responsesOf, List.filter_append]
      exact List.append_ne_nil_of_left_ne_nil present _

theorem Remains.stays {count : WithTop Nat} (remains : Remains alone count)
    (sameReplies : later.replies = alone.replies) (same : alone.replies ≠ [] → later = alone) :
    Remains later count := by
  cases remains with
  | unbegun none => exact .unbegun (sameReplies.trans none)
  | begun count final begun ends =>
      rw [same begun]
      exact .begun count final begun ends

theorem Remains.turns {od : ObjectDictionary N}
    {taken : ObjectDictionary N → ObjectDictionary N → Prop} {count : WithTop Nat}
    (remains : Remains alone count)
    (follows : Follows origin started first taken od alone line)
    (ends : ∀ od : ObjectDictionary N, ∃ requests final,
      Loop.Ends (Exchange.turn (Host.serve Host.undisturbed))
        ⟨started, ⟨origin.sdo, od⟩, .send first, []⟩ requests final)
    (turned : alone.turn (Host.serve Host.undisturbed) = pure (some later)) :
    ∃ fewer, fewer < count ∧ Remains later fewer := by
  have begun : later.replies ≠ [] := by
    rcases Exchange.turn_eq_some_iff.mp turned with ⟨_, _, _, _, _, _, _, _, rfl⟩
    simp
  cases remains with
  | unbegun none =>
      rcases ends od with ⟨requests, final, endsHere⟩
      rcases endsHere.from_reached (follows.steps.trans (.one turned)) with ⟨remaining, endsLater⟩
      exact ⟨remaining, WithTop.coe_lt_top remaining, .begun remaining final begun endsLater⟩
  | begun count final _ endsHere =>
      rcases endsHere.steps with ⟨steps, done⟩
      cases steps with
      | refl => cases done.symm.trans turned
      | @next _ _ _ fewer taken rest =>
          cases taken.symm.trans turned
          refine ⟨fewer, ?_, .begun fewer final begun (rest.ends (Loop.ends_of_done done))⟩
          exact WithTop.coe_lt_coe.mpr (Nat.lt_succ_self fewer)

/-- Every step of a line ends the session, brings it closer to its end, or leaves it as far from
its end if it is not the one that is wanted. -/
theorem Ranked.step {rank : WithTop Nat × Nat × Nat} {wanted : Own}
    (ranked : Ranked origin started first line rank wanted)
    (ends : ∀ od : ObjectDictionary N, ∃ requests final,
      Loop.Ends (Exchange.turn (Host.serve Host.undisturbed))
        ⟨started, ⟨origin.sdo, od⟩, .send first, []⟩ requests final)
    {own : Option Own} (stepped : LineStep origin line own after) :
    (∀ frame, after.session.event ≠ .send frame) ∨
    (∃ smaller next, Closer smaller rank ∧ Ranked origin started first after smaller next) ∨
    own ≠ some wanted ∧ Ranked origin started first after rank wanted := by
  rcases rank with ⟨count, stage⟩
  rcases ranked with ⟨od, alone, follows, remains, at_⟩
  cases stepped with
  | heard _ toNode toHost disabled harmlessNode harmlessHost =>
      exact .inr (.inr ⟨fun same => disabled wanted same at_.enabled, od, alone,
        follows.hear toNode toHost harmlessNode harmlessHost, remains, at_.append toNode toHost⟩)
  | requested frame sends free =>
      cases at_ with
      | requested awaits | answered awaits => cases free.symm.trans awaits
      | ready =>
          refine .inr (.inl ⟨_, .serve, .right _ (.left _ _ Nat.zero_lt_one), od, alone,
            follows.request sends free, remains, .requested rfl ?_⟩)
          simp [requestsTo]
  | discarded frame rest next noResponse =>
      have follows_ := follows.discard next noResponse
      cases at_ with
      | requested awaits present =>
          exact .inr (.inr ⟨by simp, od, alone, follows_, remains, .requested awaits present⟩)
      | ready request free sends =>
          exact .inr (.inr ⟨by simp, od, alone, follows_, remains, .ready request free sends⟩)
      | answered awaits present =>
          rw [next, ahead_cons noResponse]
          rw [next, responsesOf, List.filter_cons_of_neg (by simpa using noResponse)] at present
          exact .inr (.inl ⟨_, .receive, .right _ (.right _ (Nat.lt_succ_self _)), od, alone,
            follows_, remains, .answered awaits present⟩)
  | received frame rest resp client event next isResponse carries fed =>
      have present : responsesOf origin line.toHost ≠ [] := by
        rw [next, responsesOf, List.filter_cons_of_pos (by simpa using isResponse)]
        simp
      rcases follows.underWay.2 present with ⟨awaits, noRequest⟩
      cases at_ with
      | requested _ pending => exact absurd noRequest pending
      | ready _ free => cases free.symm.trans awaits
      | answered =>
          rcases follows.receive next isResponse with ⟨resp', _, _, carries', fed', received⟩
          have sameResp : resp' = resp := Vector.toList_inj.mp (carries'.symm.trans carries)
          subst sameResp
          cases fed.symm.trans fed'
          cases event with
          | send request =>
              exact .inr (.inl ⟨_, .request, .right _ (.left _ _ Nat.one_lt_two), od, alone,
                received, remains, .ready request rfl rfl⟩)
          | complete value => exact .inl fun _ => by simp
          | aborted code => exact .inl fun _ => by simp
  | overheard frame rest node tx replies next noRequest took harmless =>
      rcases follows.overhear next noRequest with
        ⟨_, _, took', -, laterOd, later, overheard, sameReplies, same⟩
      cases took.symm.trans took'
      have heard := overheard.hear [] replies (by simp) harmless
      have left := remains.stays sameReplies same
      simp only [List.append_nil] at heard
      have moved : ∀ {stage wanted}, Stage origin { line with node, toNode := rest } stage wanted →
          Stage origin { line with node, toNode := rest, toHost := line.toHost ++ replies } stage
            wanted := by
        intro stage wanted at_
        have appended := at_.append [] replies
        simpa using appended
      cases at_ with
      | requested awaits present =>
          rw [next, ahead_cons noRequest]
          rw [next, requestsTo, List.filter_cons_of_neg (by simpa using noRequest)] at present
          exact .inr (.inl ⟨_, .serve, .right _ (.right _ (Nat.lt_succ_self _)), laterOd, later,
            heard, left, moved (.requested awaits present)⟩)
      | ready request free sends =>
          exact .inr (.inr ⟨by simp, laterOd, later, heard, left,
            moved (.ready request free sends)⟩)
      | answered awaits present =>
          exact .inr (.inr ⟨by simp, laterOd, later, heard, left,
            moved (.answered awaits present)⟩)
  | served frame rest node tx resp next isRequest took sent =>
      have present : requestsTo origin line.toNode ≠ [] := by
        rw [next, requestsTo, List.filter_cons_of_pos (by simpa using isRequest)]
        simp
      rcases follows.underWay.1 present with ⟨awaits, noResponse⟩
      cases at_ with
      | ready _ free => cases free.symm.trans awaits
      | answered _ pending => exact absurd noResponse pending
      | requested =>
          rcases follows.serve ends next isRequest with
            ⟨_, _, resp', took', sent', reached, served, turned⟩
          cases took.symm.trans took'
          cases sent.symm.trans sent'
          rcases remains.turns follows ends turned with ⟨fewer, less, left⟩
          refine .inr (.inl ⟨⟨fewer, _⟩, .receive, .left _ _ less, od, reached,
            served.mono fun _ _ _ => trivial, left, .answered awaits ?_⟩)
          simp [responsesOf]

theorem Follows.stays_ended {od : ObjectDictionary N}
    {taken : ObjectDictionary N → ObjectDictionary N → Prop}
    (follows : Follows origin started first taken od alone line) {own : Option Own}
    (stepped : LineStep origin line own after)
    (ended : ∀ frame, line.session.event ≠ .send frame) : after.session = line.session := by
  cases stepped with
  | requested frame sends => exact absurd sends (ended frame)
  | received frame rest resp client event next isResponse =>
      have present : responsesOf origin line.toHost ≠ [] := by
        rw [next, responsesOf, List.filter_cons_of_pos (by simpa using isResponse)]
        simp
      have phase := follows.phase
      generalize line.session = session at phase ended
      generalize requestsTo origin line.toNode = requests at phase
      generalize responsesOf origin line.toHost = responses at phase present
      cases phase with
      | ready | requested => exact absurd rfl present
      | answered _ request => exact absurd rfl (ended request)
  | _ => rfl

/-! ## Endless runs -/

namespace Network

open Fairness (Recurs)

variable {ι : Type} [DecidableEq ι] {capacity : ι → Nat}
  {origin : ∀ index, Node (capacity index)} {started : ι → SdoClient} {first : ι → SdoPayload}

def Runs (schedule : Nat → Move ι) (states : Nat → Network capacity) : Prop :=
  ∀ time, (states time).step (schedule time) = pure (states (time + 1), ())

/-- The dictionaries of a node around a request that it has taken by some time of a run. -/
def TookBy (origin : ∀ index, Node (capacity index)) (schedule : Nat → Move ι)
    (states : Nat → Network capacity) (time : Nat) (index : ι)
    (before after : ObjectDictionary (capacity index)) : Prop :=
  ∃ earlier, earlier < time ∧ schedule earlier = .serve index ∧
    IsAsked (origin index) ((states earlier).inboxes (.node index)) ∧
    before = ((states earlier).nodes index).od ∧ after = ((states (earlier + 1)).nodes index).od

omit [DecidableEq ι] in
theorem TookBy.succ {schedule : Nat → Move ι} {states : Nat → Network capacity} {time : Nat}
    {index : ι} {before after : ObjectDictionary (capacity index)}
    (took : TookBy origin schedule states time index before after) :
    TookBy origin schedule states (time + 1) index before after := by
  rcases took with ⟨earlier, sooner, taken⟩
  exact ⟨earlier, Nat.lt_succ_of_lt sooner, taken⟩

def HarmlessSchedule (origin : ∀ index, Node (capacity index)) (schedule : Nat → Move ι) : Prop :=
  ∀ time sender frame, schedule time = .traffic sender frame →
    ∀ index, Harmless (origin index) frame

theorem exists_endless_run (opened : Opened origin started first) {schedule : Nat → Move ι}
    (harmless : HarmlessSchedule origin schedule) {start : Network capacity}
    (atStart : AllFollow origin started first (fun _ _ _ => True) start) :
    ∃ states : Nat → Network capacity, states 0 = start ∧ Runs schedule states := by
  rcases Fairness.exists_run Network.step schedule
    (fun _ network => AllFollow origin started first (fun _ _ _ => True) network) atStart
    (fun time network follow => by
      rcases step_line opened follow (schedule time) (harmless time) with ⟨after, moved, lines⟩
      refine ⟨after, (), moved, fun index => ?_⟩
      rcases follow index with ⟨od, alone, follows⟩
      rcases follows.step (opened.ends index) (lines index) (fun _ _ => True)
        (fun _ _ _ => trivial) (fun _ _ => trivial) with ⟨laterOd, later, followsAfter, -⟩
      exact ⟨laterOd, later, followsAfter⟩) with ⟨states, begins, runs⟩
  exact ⟨states, begins, fun time => (runs time).2.choose_spec⟩

theorem Runs.follow (opened : Opened origin started first) {schedule : Nat → Move ι}
    (harmless : HarmlessSchedule origin schedule) {states : Nat → Network capacity}
    (runs : Runs schedule states)
    (atStart : AllFollow origin started first (TookBy origin schedule states 0) (states 0))
    (time : Nat) :
    AllFollow origin started first (TookBy origin schedule states time) (states time) ∧
      ∀ index, LineStep (origin index) ((states time).line index)
        (Move.own index (schedule time)) ((states (time + 1)).line index) := by
  have lines : ∀ time,
      AllFollow origin started first (TookBy origin schedule states time) (states time) →
      ∀ index, LineStep (origin index) ((states time).line index)
        (Move.own index (schedule time)) ((states (time + 1)).line index) := by
    intro time follow
    rcases step_line opened follow (schedule time) (harmless time) with ⟨after, moved, lines⟩
    cases (runs time).symm.trans moved
    exact lines
  have follow : AllFollow origin started first (TookBy origin schedule states time)
      (states time) := by
    induction time with
    | zero => exact atStart
    | succ time induction =>
        intro index
        rcases induction index with ⟨od, alone, follows⟩
        rcases follows.step (opened.ends index) (lines time induction index)
          (TookBy origin schedule states (time + 1) index) (fun _ _ took => took.succ)
          (fun own asked => ⟨time, Nat.lt_succ_self time, own_eq_serve own, asked, rfl, rfl⟩) with
          ⟨laterOd, later, followsAfter, -⟩
        exact ⟨laterOd, later, followsAfter⟩
  exact ⟨follow, lines time follow⟩

end Network

end CanOpen
