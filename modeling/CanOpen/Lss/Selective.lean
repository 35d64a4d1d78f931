import CanOpen.Lss.Identity
import Mathlib.Data.List.Forall2
import Mathlib.Tactic.IntervalCases

/-! # Selective switching

The progress counter of a slave tells how many identity values the latest switch frames
name in order. So exactly the slaves of the address in the four frames are selected.
-/

namespace CanOpen.Lss

/-! ## Switch frames one by one -/

/-- The frames end with those that name one more value if the last one names it and the
others end with those before. -/
theorem endsNaming_append {address : LssAddress} {count : Nat} {frames : List LssFrame}
    {f : LssFrame} :
    EndsNaming address (count + 1) (frames ++ [f]) ↔
      NamesValue address count f ∧ EndsNaming address count frames := by
  constructor
  · rintro ⟨earlier, last, split, names, before⟩
    rcases List.append_inj' split rfl with ⟨rfl, same⟩
    cases same
    exact ⟨names, before⟩
  · rintro ⟨names, before⟩
    exact ⟨frames, f, rfl, names, before⟩

theorem csSwitchSelective_inj {left right : Nat} (leftLe : left ≤ 3) (rightLe : right ≤ 3)
    (same : csSwitchSelective left = csSwitchSelective right) : left = right := by
  have checked : ∀ left right : Fin 4,
      csSwitchSelective left = csSwitchSelective right → left = right := by
    decide
  have equal := checked ⟨left, by omega⟩ ⟨right, by omega⟩ same
  exact congrArg Fin.val equal

theorem IsSwitch.cases {f : LssFrame} (switch : IsSwitch f) :
    f.get 0 = csSwitchGlobal ∨ ∃ sub ≤ 3, f.get 0 = csSwitchSelective sub := by
  simp only [IsSwitch, List.mem_cons, List.not_mem_nil, or_false] at switch
  rcases switch with global | vendor | product | revision | serial
  · exact .inl global
  · exact .inr ⟨0, by decide, vendor⟩
  · exact .inr ⟨1, by decide, product⟩
  · exact .inr ⟨2, by decide, revision⟩
  · exact .inr ⟨3, by decide, serial⟩

namespace LssSlave

theorem handle_global (slave : LssSlave) {req : LssFrame} (global : req.get 0 = csSwitchGlobal) :
    slave.handle req = pure ({ slave with
      selective := 0
      state := if req.get 1 = modeConfiguration then .configuration else .waiting }, none) := by
  rw [handle, if_pos global]

/-- A frame that names a value before the serial number is counted if it carries the slave's
own value and comes in turn, and otherwise starts the count again. -/
theorem handle_naming (slave : LssSlave) {req : LssFrame} {sub : Nat} (early : sub < 3)
    (specifier : req.get 0 = csSwitchSelective sub) :
    slave.handle req = pure ({ slave with
      selective := if (sub = 0 ∨ slave.selective = UInt8.ofNat sub) ∧
          u32At req = slave.address.identity sub then UInt8.ofNat (sub + 1) else 0 }, none) := by
  unfold handle
  interval_cases sub
  · have isVendor : req.get 0 = csSwitchSelectiveVendor := specifier
    rw [isVendor, if_neg (by decide), if_pos rfl]
    simp [LssAddress.identity]
  · have isProduct : req.get 0 = csSwitchSelectiveProduct := specifier
    rw [isProduct, if_neg (by decide), if_neg (by decide), if_pos rfl]
    simp [LssAddress.identity]
  · have isRevision : req.get 0 = csSwitchSelectiveRevision := specifier
    rw [isRevision, if_neg (by decide), if_neg (by decide), if_neg (by decide), if_pos rfl]
    simp [LssAddress.identity]

theorem handle_serial (slave : LssSlave) {req : LssFrame}
    (specifier : req.get 0 = csSwitchSelectiveSerial) :
    slave.handle req =
      if slave.selective = 3 ∧ u32At req = slave.address.serialNumber then
        pure ({ slave with selective := 0, state := .configuration },
          some (frame csSwitchSelectiveResponse))
      else pure ({ slave with selective := 0 }, none) := by
  unfold handle
  rw [specifier, if_neg (by decide), if_neg (by decide), if_neg (by decide),
    if_neg (by decide), if_pos rfl]

theorem handle_keeps_selective {slave after : LssSlave} {req : LssFrame}
    {response : Option LssFrame} (noSwitch : ¬ IsSwitch req)
    (handled : slave.handle req = pure (after, response)) :
    after.selective = slave.selective := by
  rcases slave.handle_affects req with ⟨after', response', handled', effect⟩
  rw [handled, Exec.pure_inj] at handled'
  cases handled'
  cases effect with
  | switched global => exact absurd (by simp [IsSwitch, global]) noSwitch
  | named sub _ names => exact absurd (isSwitch_of_selective names.1) noSwitch
  | dismissed switch => exact absurd switch noSwitch
  | selected names => exact absurd (isSwitch_of_selective names.1) noSwitch
  | restarted | confirmed | discovered | unmoved => rfl

end LssSlave

/-! ## The count -/

/-- The slave has counted as many identity values as the latest switch frames name in
order. -/
structure Counts (address : LssAddress) (frames : List LssFrame) (slave : LssSlave) : Prop where
  sameAddress : slave.address = address
  counted : ∀ count < 3,
    slave.selective = UInt8.ofNat (count + 1) ↔ EndsNaming address (count + 1) frames

theorem zero_ne_ofNat {count : Nat} (early : count < 3) :
    (0 : UInt8) ≠ UInt8.ofNat (count + 1) := by
  interval_cases count <;> decide

theorem ofNat_inj {left right : Nat} (leftLt : left < 3) (rightLt : right < 3)
    (same : UInt8.ofNat (left + 1) = UInt8.ofNat (right + 1)) : left = right := by
  have checked : ∀ left right : Fin 3,
      UInt8.ofNat (left + 1) = UInt8.ofNat (right + 1) → left = right := by
    decide
  exact congrArg Fin.val (checked ⟨left, leftLt⟩ ⟨right, rightLt⟩ same)

theorem counts_new (address : LssAddress) (nodeId : UInt8) :
    Counts address [] (LssSlave.new address nodeId) := by
  refine ⟨rfl, ?_⟩
  intro count early
  constructor
  · intro same
    exact absurd same (zero_ne_ofNat early)
  · rintro ⟨earlier, last, split, -⟩
    exact absurd split (by simp)

section

variable {address : LssAddress} {frames : List LssFrame} {slave after : LssSlave}
  {req : LssFrame} {response : Option LssFrame}

theorem Counts.restarted (counts : Counts address frames slave)
    (other : ∀ sub < 3, req.get 0 ≠ csSwitchSelective sub)
    (sameAddress : after.address = slave.address) (restarts : after.selective = 0) :
    Counts address (frames ++ [req]) after := by
  refine ⟨sameAddress.trans counts.sameAddress, ?_⟩
  intro count early
  rw [restarts, endsNaming_append]
  constructor
  · intro same
    exact absurd same (zero_ne_ofNat early)
  · intro names
    exact absurd names.1.1 (other count early)

theorem Counts.named (counts : Counts address frames slave) {sub : Nat} (early : sub < 3)
    (specifier : req.get 0 = csSwitchSelective sub)
    (handled : slave.handle req = pure (after, response)) :
    Counts address (frames ++ [req]) after := by
  rw [slave.handle_naming early specifier, Exec.pure_inj] at handled
  cases handled
  refine ⟨counts.sameAddress, ?_⟩
  intro count countEarly
  have inTurn : (sub = 0 ∨ slave.selective = UInt8.ofNat sub) ↔ EndsNaming address sub frames := by
    cases sub with
    | zero => simp [EndsNaming]
    | succ sub =>
        rw [← counts.counted sub (by omega)]
        simp
  rw [endsNaming_append, NamesValue, specifier]
  dsimp only
  split
  · next counted =>
      rw [inTurn, counts.sameAddress] at counted
      constructor
      · intro reached
        have same := ofNat_inj early countEarly reached
        subst same
        exact ⟨⟨rfl, counted.2⟩, counted.1⟩
      · rintro ⟨⟨named, -⟩, -⟩
        rw [csSwitchSelective_inj (by omega) (by omega) named]
  · next ignored =>
      rw [inTurn, counts.sameAddress] at ignored
      constructor
      · intro reached
        exact absurd reached (zero_ne_ofNat countEarly)
      · rintro ⟨⟨named, value⟩, before⟩
        have same := csSwitchSelective_inj (by omega) (by omega) named
        subst same
        exact absurd ⟨before, value⟩ ignored

theorem Counts.handle (counts : Counts address frames slave)
    (handled : slave.handle req = pure (after, response)) :
    Counts address (if IsSwitch req then frames ++ [req] else frames) after := by
  have sameAddress : after.address = slave.address := by
    rcases slave.handle_keeps req with ⟨_, _, kept, keepsAddress, -⟩
    rw [handled, Exec.pure_inj] at kept
    cases kept
    exact keepsAddress
  split
  · next switch =>
      rcases switch.cases with global | ⟨sub, subLe, specifier⟩
      · rw [slave.handle_global global, Exec.pure_inj] at handled
        cases handled
        refine counts.restarted ?_ rfl rfl
        intro sub early
        rw [global]
        interval_cases sub <;> decide
      · by_cases early : sub < 3
        · exact counts.named early specifier handled
        · have serial : req.get 0 = csSwitchSelectiveSerial := by
            have isSerial : sub = 3 := by omega
            rw [specifier, isSerial]
            rfl
          refine counts.restarted ?_ sameAddress ?_
          · intro other otherEarly
            rw [serial]
            interval_cases other <;> decide
          · rw [slave.handle_serial serial] at handled
            split at handled <;>
              · rw [Exec.pure_inj] at handled
                cases handled
                rfl
  · next noSwitch =>
      refine ⟨sameAddress.trans counts.sameAddress, ?_⟩
      rw [LssSlave.handle_keeps_selective noSwitch handled]
      exact counts.counted

end

/-! ## The life of a slave -/

/-- What is done with a slave. -/
inductive SlaveOp where
  | handle (req : LssFrame)
  | adoptPending

namespace SlaveOp

def perform (slave : LssSlave) : SlaveOp → Exec (LssSlave × Option LssFrame)
  | handle req => slave.handle req
  | adoptPending => pure (slave.adoptPending, none)

theorem perform_returns (slave : LssSlave) (op : SlaveOp) :
    ∃ after response, perform slave op = pure (after, response) := by
  cases op with
  | handle req =>
      rcases slave.handle_keeps req with ⟨after, response, handled, -⟩
      exact ⟨after, response, handled⟩
  | adoptPending => exact ⟨_, _, rfl⟩

def frame? : SlaveOp → Option LssFrame
  | handle req => some req
  | adoptPending => none

end SlaveOp

def switchFrames (past : List (Trace.Event LssSlave SlaveOp (Option LssFrame))) :
    List LssFrame :=
  (past.filterMap fun event => event.input.frame?).filter IsSwitch

/-- The slave answers that it is selected, and is in the configuration state. -/
def Selects (event : Trace.Event LssSlave SlaveOp (Option LssFrame)) : Prop :=
  event.output = some (frame csSwitchSelectiveResponse) ∧ event.after.state = .configuration

/-- The serial number selects the slave exactly when the switch frames before name the rest of
its address, and otherwise draws no response and leaves the state alone. -/
def SelectsByName (address : LssAddress)
    (past : List (Trace.Event LssSlave SlaveOp (Option LssFrame)))
    (event : Trace.Event LssSlave SlaveOp (Option LssFrame)) : Prop :=
  ∀ req, event.input = .handle req → req.get 0 = csSwitchSelectiveSerial →
    (Selects event ↔
      u32At req = address.serialNumber ∧ EndsNaming address 3 (switchFrames past)) ∧
    (¬ Selects event → event.output = none ∧ event.after.state = event.before.state)

theorem counts_step {address : LssAddress} {slave after : LssSlave} {op : SlaveOp}
    {response : Option LssFrame}
    {past : List (Trace.Event LssSlave SlaveOp (Option LssFrame))}
    (counts : Counts address (switchFrames past) slave)
    (performed : op.perform slave = pure (after, response)) :
    Counts address (switchFrames (past ++ [⟨slave, op, response, after⟩])) after ∧
      SelectsByName address past ⟨slave, op, response, after⟩ := by
  cases op with
  | adoptPending =>
      cases performed
      have same : switchFrames (past ++ [⟨slave, .adoptPending, none, slave.adoptPending⟩]) =
          switchFrames past := by
        simp [switchFrames, SlaveOp.frame?]
      rw [same]
      refine ⟨⟨counts.sameAddress, counts.counted⟩, ?_⟩
      intro req isHandle
      cases isHandle
  | handle req =>
      have handled : slave.handle req = pure (after, response) := performed
      constructor
      · have more : switchFrames (past ++ [⟨slave, .handle req, response, after⟩]) =
            if IsSwitch req then switchFrames past ++ [req] else switchFrames past := by
          by_cases switch : IsSwitch req <;> simp [switchFrames, SlaveOp.frame?, switch]
        rw [more]
        exact counts.handle handled
      · intro other same specifier
        cases same
        rw [slave.handle_serial specifier, counts.sameAddress] at handled
        have named : slave.selective = 3 ↔ EndsNaming address 3 (switchFrames past) :=
          counts.counted 2 (by decide)
        have inTurn : u32At req = address.serialNumber ∧
            EndsNaming address 3 (switchFrames past) ↔
              slave.selective = 3 ∧ u32At req = address.serialNumber := by
          rw [and_comm, named]
        rw [inTurn]
        by_cases own : slave.selective = 3 ∧ u32At req = address.serialNumber
        · rw [if_pos own, Exec.pure_inj] at handled
          cases handled
          have selected : Selects (⟨slave, .handle req, some (frame csSwitchSelectiveResponse),
              { slave with selective := 0, state := .configuration }⟩) := ⟨rfl, rfl⟩
          exact ⟨iff_of_true selected own, fun ignored => absurd selected ignored⟩
        · rw [if_neg own, Exec.pure_inj] at handled
          cases handled
          exact ⟨iff_of_false (fun selected => by cases selected.1) own, fun _ => ⟨rfl, rfl⟩⟩

/-! ## Slaves on the bus -/

/-- Send frames one after the other to all slaves. The result is what becomes of the slaves,
and their responses to each frame. -/
def broadcast : List LssFrame → List LssSlave →
    Exec (List LssSlave × List (List (Option LssFrame)))
  | [], slaves => pure (slaves, [])
  | req :: frames, slaves => do
      let handled ← slaves.mapM fun slave => slave.handle req
      let (slaves, responses) ← broadcast frames (handled.map Prod.fst)
      pure (slaves, handled.map Prod.snd :: responses)

theorem broadcast_cons {slaves final : List LssSlave} {req : LssFrame} {frames : List LssFrame}
    {responses : List (List (Option LssFrame))} {before after : LssSlave → LssSlave}
    {response : LssSlave → Option LssFrame}
    (handles : ∀ slave, (before slave).handle req = pure (after slave, response slave))
    (rest : broadcast frames (slaves.map after) = pure (final, responses)) :
    broadcast (req :: frames) (slaves.map before) =
      pure (final, slaves.map response :: responses) := by
  have handled : (slaves.map before).mapM (fun slave => slave.handle req) =
      pure (slaves.map fun slave => (after slave, response slave)) := by
    rw [List.mapM_map]
    exact Exec.mapM_eq_pure fun slave _ => handles slave
  have states : (slaves.map fun slave => (after slave, response slave)).map Prod.fst =
      slaves.map after := by
    rw [List.map_map]
    rfl
  have answers : (slaves.map fun slave => (after slave, response slave)).map Prod.snd =
      slaves.map response := by
    rw [List.map_map]
    rfl
  rw [broadcast, handled, pure_bind, states, answers, rest]
  rfl

def Agrees (address : LssAddress) (count : Nat) (slave : LssSlave) : Prop :=
  ∀ sub < count, address.identity sub = slave.address.identity sub

instance (address : LssAddress) (count : Nat) (slave : LssSlave) :
    Decidable (Agrees address count slave) := by
  unfold Agrees
  infer_instance

theorem agrees_succ {address : LssAddress} {count : Nat} {slave : LssSlave} :
    Agrees address (count + 1) slave ↔
      Agrees address count slave ∧ address.identity count = slave.address.identity count := by
  simp only [Agrees, Nat.lt_succ_iff_lt_or_eq]
  constructor
  · intro all
    exact ⟨fun sub before => all sub (.inl before), all count (.inr rfl)⟩
  · rintro ⟨before, last⟩ sub (earlier | rfl)
    · exact before sub earlier
    · exact last

theorem agrees_four {address : LssAddress} {slave : LssSlave} :
    Agrees address 3 slave ∧ address.serialNumber = slave.address.serialNumber ↔
      slave.address = address := by
  constructor
  · rintro ⟨agrees, serial⟩
    have vendor := agrees 0 (by decide)
    have product := agrees 1 (by decide)
    have revision := agrees 2 (by decide)
    simp only [LssAddress.identity] at vendor product revision
    rcases slave with ⟨⟨_, _, _, _⟩, _, _, _, _, _⟩
    rcases address with ⟨_, _, _, _⟩
    simp_all
  · rintro rfl
    exact ⟨fun _ _ => rfl, rfl⟩

def named (address : LssAddress) (count : Nat) (slave : LssSlave) : LssSlave :=
  { slave with selective := if Agrees address count slave then UInt8.ofNat count else 0 }

theorem named_selective (address : LssAddress) {count : Nat} (early : count < 3)
    (slave : LssSlave) :
    (named address (count + 1) slave).selective = UInt8.ofNat (count + 1) ↔
      Agrees address (count + 1) slave := by
  unfold named
  dsimp only
  split
  · next agrees => simp [agrees]
  · next differs => exact iff_of_false (zero_ne_ofNat early) differs

theorem handle_vendor (address : LssAddress) (slave : LssSlave) :
    slave.handle (frameU32 csSwitchSelectiveVendor address.vendorId) =
      pure (named address 1 slave, none) := by
  have specifier : (frameU32 csSwitchSelectiveVendor address.vendorId).get 0 =
      csSwitchSelective 0 := rfl
  have vendor : Agrees address 1 slave ↔ address.vendorId = slave.address.identity 0 := by
    rw [agrees_succ]
    exact and_iff_right fun _ impossible => absurd impossible (Nat.not_lt_zero _)
  rw [slave.handle_naming (by decide) specifier, u32At_frameU32]
  simp only [named, vendor, true_or, true_and]

theorem handle_named (address : LssAddress) (slave : LssSlave) {sub : Nat} (early : sub < 2) :
    (named address (sub + 1) slave).handle
        (frameU32 (csSwitchSelective (sub + 1)) (address.identity (sub + 1))) =
      pure (named address (sub + 2) slave, none) := by
  have specifier : (frameU32 (csSwitchSelective (sub + 1)) (address.identity (sub + 1))).get 0 =
      csSwitchSelective (sub + 1) := rfl
  have inTurn := named_selective address (show sub < 3 by omega) slave
  have more : Agrees address (sub + 2) slave ↔ Agrees address (sub + 1) slave ∧
      address.identity (sub + 1) = (named address (sub + 1) slave).address.identity (sub + 1) :=
    agrees_succ
  rw [LssSlave.handle_naming _ (by omega) specifier, u32At_frameU32]
  simp only [inTurn, Nat.add_eq_zero_iff, Nat.one_ne_zero, and_false, false_or, ← more]
  rfl

theorem handle_named_serial (address : LssAddress) (slave : LssSlave) :
    (named address 3 slave).handle (frameU32 csSwitchSelectiveSerial address.serialNumber) =
      pure ({ slave with
          selective := 0
          state := if slave.address = address then .configuration else slave.state },
        if slave.address = address then some (frame csSwitchSelectiveResponse) else none) := by
  have inTurn := named_selective address (show 2 < 3 by decide) slave
  have threeCounted : (named address 3 slave).selective = 3 ↔ Agrees address 3 slave := inTurn
  have sameAddress : (named address 3 slave).address = slave.address := rfl
  rw [LssSlave.handle_serial _ rfl, u32At_frameU32, sameAddress]
  simp only [threeCounted, agrees_four]
  split <;> rfl

/-- Whatever frames a slave has handled, and whenever it adopted its pending node-id, the
serial number selects it exactly when the three latest switch frames before name its other
values in order, and otherwise draws no response and leaves its state alone. So the frames of a
selective switch draw a response from the slaves of that address and select them, and leave the LSS
state of all others alone. -/
theorem selective_switch_exact :
    (∀ (address : LssAddress) (nodeId : UInt8) (ops : List SlaveOp), ∃ events final,
      Trace.run SlaveOp.perform (LssSlave.new address nodeId) ops = pure (events, final) ∧
        ∀ past event future, events = past ++ event :: future →
          ∀ req, event.input = .handle req → req.get 0 = csSwitchSelectiveSerial →
            (Selects event ↔
              u32At req = address.serialNumber ∧ EndsNaming address 3 (switchFrames past)) ∧
            (¬ Selects event →
              event.output = none ∧ event.after.state = event.before.state)) ∧
    ∀ (slaves : List LssSlave) (address : LssAddress), ∃ final,
      broadcast (encodeSwitchSelective address) slaves =
          pure (final, [slaves.map fun _ => none, slaves.map fun _ => none,
            slaves.map fun _ => none, slaves.map fun slave =>
              if slave.address = address then some (frame csSwitchSelectiveResponse) else none]) ∧
        List.Forall₂ (fun slave after => after.state =
          if slave.address = address then .configuration else slave.state) slaves final := by
  constructor
  · intro address nodeId ops
    rcases Trace.run_total (fun _ : LssSlave => True) ops trivial
      (fun slave op _ _ => by
        rcases SlaveOp.perform_returns slave op with ⟨after, response, performed⟩
        exact ⟨after, response, performed, trivial⟩) with ⟨events, final, ran, -⟩
    have history := Trace.run_history
      (fun past slave => Counts address (switchFrames past) slave) (SelectsByName address)
      (counts_new address nodeId)
      (fun past slave op after response counts performed => counts_step counts performed) ran
    refine ⟨events, final, ran, ?_⟩
    intro past event future split req isHandle specifier
    exact history.2 past event future split req isHandle specifier
  · intro slaves address
    have fourth := broadcast_cons (handle_named_serial address)
      (show broadcast [] (slaves.map _) = pure (_, []) from rfl)
    have third := broadcast_cons (fun slave => handle_named address slave (by decide)) fourth
    have second := broadcast_cons (fun slave => handle_named address slave (by decide)) third
    have first := broadcast_cons (handle_vendor address) second
    rw [List.map_id'] at first
    refine ⟨_, first, ?_⟩
    rw [List.forall₂_map_right_iff, List.forall₂_same]
    intro slave _
    rfl

end CanOpen.Lss
