import CanOpen.Foundation.BitSearch
import CanOpen.Foundation.Trace
import CanOpen.Lss.Slave
import Mathlib.Data.List.DropRight

/-! # How a slave is selected

A slave goes to the configuration state when all slaves are switched there, when a
selective switch names its identity, or at the end of a Fastscan. The history of
frames shows how much of the identity was named.
-/

namespace CanOpen.Lss

/-! ## Frames that name an identity -/

def csSwitchSelective (sub : Nat) : UInt8 :=
  if sub = 0 then csSwitchSelectiveVendor
  else if sub = 1 then csSwitchSelectiveProduct
  else if sub = 2 then csSwitchSelectiveRevision
  else csSwitchSelectiveSerial

def IsSwitch (f : LssFrame) : Prop :=
  f.get 0 ∈ [csSwitchGlobal, csSwitchSelectiveVendor, csSwitchSelectiveProduct,
    csSwitchSelectiveRevision, csSwitchSelectiveSerial]

instance (f : LssFrame) : Decidable (IsSwitch f) := by
  unfold IsSwitch
  infer_instance

theorem isSwitch_of_selective {sub : Nat} {f : LssFrame}
    (specifier : f.get 0 = csSwitchSelective sub) : IsSwitch f := by
  rw [IsSwitch, specifier, csSwitchSelective]
  split_ifs <;> decide

def SwitchesGlobally (f : LssFrame) : Prop :=
  f.get 0 = csSwitchGlobal ∧ f.get 1 = modeConfiguration

def NamesValue (address : LssAddress) (sub : Nat) (f : LssFrame) : Prop :=
  f.get 0 = csSwitchSelective sub ∧ u32At f = address.identity sub

/-- The frames end with those that name the first `count` identity values in order. -/
def EndsNaming (address : LssAddress) : Nat → List LssFrame → Prop
  | 0, _ => True
  | count + 1, frames => ∃ earlier last, frames = earlier ++ [last] ∧
      NamesValue address count last ∧ EndsNaming address count earlier

def IsInitialProbe (f : LssFrame) : Prop := f.get 0 = csFastscan ∧ fastscanInit ≤ f.get 5

instance (f : LssFrame) : Decidable (IsInitialProbe f) := by
  unfold IsInitialProbe
  infer_instance

/-- A Fastscan request whose candidate is in every bit the value that it asks about. -/
structure MatchesInFull (address : LssAddress) (f : LssFrame) : Prop where
  specifier : f.get 0 = csFastscan
  allBits : f.get 5 = 0
  value : u32At f = address.identity (f.get 6).toNat

namespace LssSlave

/-- What a frame does to a slave. -/
inductive Effect (slave : LssSlave) (req : LssFrame) :
    LssSlave → Option LssFrame → Prop
  | switched (global : req.get 0 = csSwitchGlobal) :
      Effect slave req { slave with
        selective := 0
        state := if req.get 1 = modeConfiguration then .configuration else .waiting } none
  | named (sub : Nat) (early : sub < 3) (names : NamesValue slave.address sub req)
      (reached : sub = 0 ∨ slave.selective = UInt8.ofNat sub) :
      Effect slave req { slave with selective := UInt8.ofNat (sub + 1) } none
  | dismissed (switch : IsSwitch req) : Effect slave req { slave with selective := 0 } none
  | selected (names : NamesValue slave.address 3 req) (reached : slave.selective = 3) :
      Effect slave req { slave with selective := 0, state := .configuration }
        (some (frame csSwitchSelectiveResponse))
  | restarted (probe : IsInitialProbe req) :
      Effect slave req { slave with fsSub := 0 } (some (frame csIdentifySlave))
  | confirmed (full : MatchesInFull slave.address req) (asked : req.get 6 = slave.fsSub)
      (early : slave.fsSub < 3) :
      Effect slave req { slave with fsSub := req.get 7 } (some (frame csIdentifySlave))
  | discovered (full : MatchesInFull slave.address req) (asked : req.get 6 = slave.fsSub)
      (serial : 3 ≤ slave.fsSub) :
      Effect slave req { slave with state := .configuration } (some (frame csIdentifySlave))
  | unmoved (pending : UInt8) (response : Option LssFrame) (noSwitch : ¬ IsSwitch req)
      (noRestart : IsInitialProbe req → response = none) :
      Effect slave req { slave with pendingNodeId := pending } response

def Affects (slave : LssSlave) (req : LssFrame) (handled : Exec (LssSlave × Option LssFrame)) :
    Prop :=
  ∃ after response, handled = pure (after, response) ∧ slave.Effect req after response

section

variable {slave after : LssSlave} {req : LssFrame} {response : Option LssFrame}

theorem Effect.affects (effect : slave.Effect req after response) :
    slave.Affects req (pure (after, response)) :=
  ⟨after, response, rfl, effect⟩

theorem Affects.ite {condition : Prop} [Decidable condition]
    {left right : Exec (LssSlave × Option LssFrame)}
    (holds : condition → slave.Affects req left)
    (fails : ¬ condition → slave.Affects req right) :
    slave.Affects req (if condition then left else right) := by
  split
  · next condition => exact holds condition
  · next condition => exact fails condition

theorem affects_of_selective {sub : Nat} (early : sub < 3)
    (specifier : req.get 0 = csSwitchSelective sub) {condition : Prop} [Decidable condition]
    (own : condition → u32At req = slave.address.identity sub ∧
      (sub = 0 ∨ slave.selective = UInt8.ofNat sub)) :
    slave.Affects req (pure ({ slave with
      selective := if condition then UInt8.ofNat (sub + 1) else 0 }, none)) := by
  by_cases holds : condition
  · rw [if_pos holds]
    rcases own holds with ⟨value, reached⟩
    exact (Effect.named sub early ⟨specifier, value⟩ reached).affects
  · rw [if_neg holds]
    exact (Effect.dismissed (isSwitch_of_selective specifier)).affects

theorem handleFastscan_affects (specifier : req.get 0 = csFastscan) :
    slave.Affects req (slave.handleFastscan req) := by
  have noSwitch : ¬ IsSwitch req := by
    rw [IsSwitch, specifier]
    decide
  unfold handleFastscan
  apply Affects.ite
  · intro absent
    exact (Effect.unmoved slave.pendingNodeId none noSwitch fun _ => rfl).affects
  intro participates
  apply Affects.ite
  · intro probe
    exact (Effect.restarted ⟨specifier, probe⟩).affects
  intro probes
  have answering : ∀ response, slave.Affects req (pure (slave, response)) := fun response =>
    (Effect.unmoved slave.pendingNodeId response noSwitch
      fun probe => absurd probe.2 probes).affects
  apply Affects.ite
  · intro other
    exact answering none
  intro asked
  rw [not_not] at asked
  have within : (req.get 5).toNat < 32 := by
    rw [fastscanInit, UInt8.le_iff_toNat_le, not_le] at probes
    exact probes
  rw [Exec.shiftLeft_of_lt _ within, pure_bind]
  apply Affects.ite
  · intro differs
    exact answering none
  intro agrees
  apply Affects.ite
  · intro confirms
    have full : MatchesInFull slave.address req := by
      have equal := (BitSearch.masked_eq_zero_iff _ _ within).mp (not_not.mp agrees)
      exact ⟨specifier, confirms.1, UInt32.toNat_inj.mp
        (by simpa [confirms.1, identity] using equal)⟩
    apply Affects.ite
    · intro serial
      exact (Effect.discovered full asked (asked ▸ serial)).affects
    · intro early
      exact (Effect.confirmed full asked (asked ▸ UInt8.not_le.mp early)).affects
  · intro probed
    exact answering _

theorem handle_affects (slave : LssSlave) (req : LssFrame) :
    slave.Affects req (slave.handle req) := by
  by_cases specifier : req.get 0 = csFastscan
  · rw [handle_of_fastscan slave specifier]
    exact handleFastscan_affects specifier
  unfold handle
  apply Affects.ite
  · intro global
    exact (Effect.switched global).affects
  intro notGlobal
  apply Affects.ite
  · intro vendor
    exact affects_of_selective (show 0 < 3 by decide) vendor fun own => ⟨own, .inl rfl⟩
  intro notVendor
  apply Affects.ite
  · intro product
    exact affects_of_selective (show 1 < 3 by decide) product fun own => ⟨own.2, .inr own.1⟩
  intro notProduct
  apply Affects.ite
  · intro revision
    exact affects_of_selective (show 2 < 3 by decide) revision fun own => ⟨own.2, .inr own.1⟩
  intro notRevision
  apply Affects.ite
  · intro serial
    apply Affects.ite
    · intro own
      exact (Effect.selected ⟨serial, own.2⟩ own.1).affects
    · intro foreign
      exact (Effect.dismissed (by simp [IsSwitch, serial])).affects
  intro notSerial
  -- What is left configures, inquires or is ignored.
  have unmoved : ∀ pending response,
      slave.Affects req (pure ({ slave with pendingNodeId := pending }, response)) :=
    fun pending response => (Effect.unmoved pending response
      (by simp [IsSwitch, notGlobal, notVendor, notProduct, notRevision, notSerial])
      fun probe => absurd probe.1 specifier).affects
  apply Affects.ite
  · intro configures
    apply Affects.ite
    · intro valid
      exact unmoved _ _
    · intro invalid
      exact unmoved slave.pendingNodeId _
  intro notConfigures
  repeat' first
    | apply Affects.ite
    | intro _
  all_goals first
    | exact absurd ‹req.get 0 = csFastscan› specifier
    | exact unmoved slave.pendingNodeId _

end

end LssSlave

/-! ## The history of a slave -/

/-- A frame in the history of a slave, with what the slave makes of it. -/
abbrev Handled := Trace.Event LssSlave LssFrame (Option LssFrame)

def switches (past : List Handled) : List LssFrame :=
  (past.map Trace.Event.input).filter IsSwitch

def sinceRestart (past : List Handled) : List Handled :=
  past.rtakeWhile fun event => ¬ (IsInitialProbe event.input ∧ event.output.isSome)

/-- An answer to a request that matches in full, about value `first`, and goes on with
value `next`. -/
structure Answers (address : LssAddress) (first next : Nat) (event : Handled) : Prop where
  answered : event.output.isSome
  full : MatchesInFull address event.input
  sub : (event.input.get 6).toNat = first
  goesOn : (event.input.get 7).toNat = next

def Confirmed (address : LssAddress) (sub : Nat) (scan : List Handled) : Prop :=
  ∃ event ∈ scan, ∃ first next, Answers address first next event ∧ min first 3 = sub

def Skipped (address : LssAddress) (sub : Nat) (scan : List Handled) : Prop :=
  ∃ event ∈ scan, ∃ first next, Answers address first next event ∧ first < sub ∧ sub < next

structure Remembered (address : LssAddress) (past : List Handled) (slave : LssSlave) : Prop where
  sameAddress : slave.address = address
  named : EndsNaming address slave.selective.toNat (switches past)
  passed : ∀ sub < slave.fsSub.toNat, ∃ event ∈ sinceRestart past, ∃ first next,
    Answers address first next event ∧ first ≤ sub ∧ sub < next

/-- A frame that takes the slave to the configuration state switches all slaves there, or
is the last of a selective switch that names the slave's address, or a Fastscan request
that `Scanned` allows. -/
def SelectedBy (address : LssAddress) (Scanned : List Handled → Handled → Prop)
    (past : List Handled) (event : Handled) : Prop :=
  event.before.state = .waiting → event.after.state = .configuration →
    SwitchesGlobally event.input ∨
    (NamesValue address 3 event.input ∧ EndsNaming address 3 (switches past)) ∨
    (event.input.get 0 = csFastscan ∧ Scanned past event)

def sinceProbe (past : List Handled) : List Handled :=
  past.rtakeWhile fun event => ¬ IsInitialProbe event.input

def ScannedFully (address : LssAddress) (past : List Handled) (event : Handled) : Prop :=
  ∀ sub < 4, Confirmed address sub (sinceProbe past ++ [event])

/-- The scan matched the vendor and the serial number, and each value between them that
the master did not skip. -/
def ScannedThrough (address : LssAddress) (past : List Handled) (event : Handled) : Prop :=
  Confirmed address 0 (sinceRestart past) ∧ Confirmed address 3 [event] ∧
    ∀ sub, 0 < sub → sub < 3 →
      Confirmed address sub (sinceRestart past) ∨ Skipped address sub (sinceRestart past)

section

variable {address : LssAddress} {past : List Handled} {slave after : LssSlave} {event : Handled}

theorem switches_append (past : List Handled) (event : Handled) :
    switches (past ++ [event]) =
      if IsSwitch event.input then switches past ++ [event.input] else switches past := by
  by_cases switch : IsSwitch event.input <;> simp [switches, switch]

theorem sinceRestart_append (past : List Handled) (event : Handled) :
    sinceRestart (past ++ [event]) =
      if IsInitialProbe event.input ∧ event.output.isSome then []
      else sinceRestart past ++ [event] := by
  by_cases restarts : IsInitialProbe event.input ∧ event.output.isSome
  · rw [if_pos restarts, sinceRestart, List.rtakeWhile_concat_neg]
    exact fun goesOn => of_decide_eq_true goesOn restarts
  · rw [if_neg restarts, sinceRestart, List.rtakeWhile_concat_pos]
    · rfl
    · exact decide_eq_true restarts

theorem Remembered.confirmed_or_skipped (remembered : Remembered address past slave)
    {sub : Nat} (early : sub < 3) (passed : sub < slave.fsSub.toNat) :
    Confirmed address sub (sinceRestart past) ∨ Skipped address sub (sinceRestart past) := by
  rcases remembered.passed sub passed with ⟨event, member, first, next, answers, before, behind⟩
  rcases Nat.lt_or_eq_of_le before with skipped | same
  · exact .inr ⟨event, member, first, next, answers, skipped, behind⟩
  · exact .inl ⟨event, member, first, next, answers, by omega⟩

theorem Remembered.scannedThrough (remembered : Remembered address past slave)
    (reached : 3 ≤ slave.fsSub) (confirms : Confirmed address 3 [event]) :
    ScannedThrough address past event := by
  have passed : ∀ {sub}, sub < 3 → sub < slave.fsSub.toNat := by
    intro sub early
    exact lt_of_lt_of_le early (UInt8.le_iff_toNat_le.mp reached)
  refine ⟨?_, confirms, fun sub _ early => remembered.confirmed_or_skipped early (passed early)⟩
  rcases remembered.confirmed_or_skipped (by decide) (@passed 0 (by decide)) with
    confirmed | ⟨_, _, first, _, _, before, _⟩
  · exact confirmed
  · exact absurd before (Nat.not_lt_zero first)

theorem IsSwitch.not_fastscan {f : LssFrame} (switch : IsSwitch f) : f.get 0 ≠ csFastscan := by
  intro specifier
  rw [IsSwitch, specifier] at switch
  exact absurd switch (by decide)

theorem MatchesInFull.not_probe {f : LssFrame} (full : MatchesInFull address f) :
    ¬ IsInitialProbe f := by
  rintro ⟨-, probe⟩
  rw [full.allBits] at probe
  exact absurd probe (by decide)

theorem Remembered.passed_append (remembered : Remembered address past slave)
    (noRestart : ¬ (IsInitialProbe event.input ∧ event.output.isSome)) {sub : Nat}
    (passed : sub < slave.fsSub.toNat) :
    ∃ earlier ∈ sinceRestart (past ++ [event]), ∃ first next,
      Answers address first next earlier ∧ first ≤ sub ∧ sub < next := by
  rw [sinceRestart_append, if_neg noRestart]
  rcases remembered.passed sub passed with ⟨earlier, member, answers⟩
  exact ⟨earlier, List.mem_append_left _ member, answers⟩

theorem Remembered.switched (remembered : Remembered address past slave)
    (switch : IsSwitch event.input) (sameAddress : after.address = slave.address)
    (sameSub : after.fsSub = slave.fsSub)
    (named : EndsNaming address after.selective.toNat (switches past ++ [event.input])) :
    Remembered address (past ++ [event]) after where
  sameAddress := sameAddress.trans remembered.sameAddress
  named := by rwa [switches_append, if_pos switch]
  passed := by
    rw [sameSub]
    exact fun sub passed => remembered.passed_append
      (fun restarts => switch.not_fastscan restarts.1.1) passed

theorem Remembered.scanned (remembered : Remembered address past slave)
    (noSwitch : ¬ IsSwitch event.input) (sameAddress : after.address = slave.address)
    (sameSelective : after.selective = slave.selective)
    (passed : ∀ sub < after.fsSub.toNat, ∃ earlier ∈ sinceRestart (past ++ [event]),
      ∃ first next, Answers address first next earlier ∧ first ≤ sub ∧ sub < next) :
    Remembered address (past ++ [event]) after where
  sameAddress := sameAddress.trans remembered.sameAddress
  named := by
    rw [switches_append, if_neg noSwitch, sameSelective]
    exact remembered.named
  passed := passed

theorem Remembered.endsNaming (remembered : Remembered address past slave) {sub : Nat}
    (early : sub ≤ 3) (reached : sub = 0 ∨ slave.selective = UInt8.ofNat sub) :
    EndsNaming address sub (switches past) := by
  rcases reached with rfl | reached
  · trivial
  · have named := remembered.named
    rwa [reached, UInt8.toNat_ofNat_of_lt' (lt_of_le_of_lt early (by decide))] at named

theorem remembered_step {req : LssFrame} {response : Option LssFrame}
    (remembered : Remembered address past slave)
    (effect : slave.Effect req after response) :
    Remembered address (past ++ [⟨slave, req, response, after⟩]) after ∧
      SelectedBy address (ScannedThrough address) past ⟨slave, req, response, after⟩ := by
  cases effect with
  | switched global =>
      constructor
      · exact remembered.switched (by simp [IsSwitch, global]) rfl rfl trivial
      · intro waiting configuring
        dsimp only at configuring
        split at configuring
        · next mode => exact .inl ⟨global, mode⟩
        · cases configuring
  | named sub early names reached =>
      rw [remembered.sameAddress] at names
      constructor
      · refine remembered.switched (isSwitch_of_selective names.1) rfl rfl ?_
        have next : (UInt8.ofNat (sub + 1)).toNat = sub + 1 :=
          UInt8.toNat_ofNat_of_lt' (lt_of_le_of_lt early (by decide))
        rw [next]
        exact ⟨switches past, req, rfl, names, remembered.endsNaming (by omega) reached⟩
      · intro waiting configuring
        cases waiting.symm.trans configuring
  | dismissed switch =>
      constructor
      · exact remembered.switched switch rfl rfl trivial
      · intro waiting configuring
        cases waiting.symm.trans configuring
  | selected names reached =>
      rw [remembered.sameAddress] at names
      constructor
      · exact remembered.switched (isSwitch_of_selective names.1) rfl rfl trivial
      · intro waiting configuring
        exact .inr (.inl ⟨names, remembered.endsNaming (by decide) (.inr reached)⟩)
  | restarted probe =>
      constructor
      · refine remembered.scanned (fun switch => switch.not_fastscan probe.1) rfl rfl ?_
        intro sub passed
        exact absurd passed (Nat.not_lt_zero sub)
      · intro waiting configuring
        cases waiting.symm.trans configuring
  | confirmed full asked early =>
      rw [remembered.sameAddress] at full
      constructor
      · refine remembered.scanned (fun switch => switch.not_fastscan full.specifier) rfl rfl ?_
        intro sub passed
        by_cases before : sub < slave.fsSub.toNat
        · exact remembered.passed_append (fun restarts => full.not_probe restarts.1) before
        · rw [sinceRestart_append, if_neg fun restarts => full.not_probe restarts.1]
          exact ⟨_, List.mem_append_right _ (List.mem_singleton_self _), _, _,
            ⟨rfl, full, rfl, rfl⟩, by rw [asked]; exact not_lt.mp before, passed⟩
      · intro waiting configuring
        cases waiting.symm.trans configuring
  | discovered full asked serial =>
      rw [remembered.sameAddress] at full
      constructor
      · exact remembered.scanned (fun switch => switch.not_fastscan full.specifier) rfl rfl
          fun sub passed =>
            remembered.passed_append (fun restarts => full.not_probe restarts.1) passed
      · intro waiting configuring
        refine .inr (.inr ⟨full.specifier, remembered.scannedThrough serial ?_⟩)
        refine ⟨_, List.mem_singleton_self _, _, _, ⟨rfl, full, rfl, rfl⟩, ?_⟩
        rw [asked]
        exact Nat.min_eq_right (UInt8.le_iff_toNat_le.mp serial)
  | unmoved pending response noSwitch noRestart =>
      constructor
      · refine remembered.scanned noSwitch rfl rfl fun sub passed =>
          remembered.passed_append ?_ passed
        rintro ⟨probe, answered⟩
        rw [noRestart probe] at answered
        cases answered
      · intro waiting configuring
        cases waiting.symm.trans configuring

end

/-- Whatever frames a slave handles, only its own identity selects it. -/
theorem selected_by_identity (address : LssAddress) (nodeId : UInt8)
    (frames : List LssFrame) :
    ∃ events final,
      Trace.run LssSlave.handle (LssSlave.new address nodeId) frames = pure (events, final) ∧
      ∀ past event future, events = past ++ event :: future →
        SelectedBy address (ScannedThrough address) past event := by
  rcases Trace.run_total (fun _ : LssSlave => True) frames trivial
    (fun slave req _ _ => by
      rcases slave.handle_keeps req with ⟨after, response, handled, -⟩
      exact ⟨after, response, handled, trivial⟩) with ⟨events, final, ran, -⟩
  have atStart : Remembered address [] (LssSlave.new address nodeId) :=
    ⟨rfl, trivial, fun sub passed => absurd passed (Nat.not_lt_zero sub)⟩
  have history := Trace.run_history (Remembered address)
    (SelectedBy address (ScannedThrough address)) atStart
    (fun past slave req after response remembered taken => by
      rcases slave.handle_affects req with ⟨after', response', handled, effect⟩
      rw [taken, Exec.pure_inj] at handled
      cases handled
      exact remembered_step remembered effect) ran
  exact ⟨events, final, ran, history.2⟩

/-- The master skips the product and the revision; and it restarts a scan of which the
slave, in the configuration state at that time, hears nothing. -/
theorem scan_not_full :
    (¬ ∀ address nodeId frames events final,
      Trace.run LssSlave.handle (LssSlave.new address nodeId) frames = pure (events, final) →
        ∀ past event future, events = past ++ event :: future →
          SelectedBy address (ScannedFully address) past event) ∧
    ¬ ∀ address nodeId frames events final,
      Trace.run LssSlave.handle (LssSlave.new address nodeId) frames = pure (events, final) →
        ∀ past event future, events = past ++ event :: future →
          SelectedBy address (fun past _ => Confirmed address 0 (sinceProbe past)) past event := by
  constructor
  · intro full
    have selected := full ⟨1, 2, 3, 4⟩ unconfiguredNodeId
      [encodeFastscan 1 0 0 3, encodeFastscan 4 0 3 0] _ _ (by rfl) [_] _ [] (by rfl)
      (by rfl) (by rfl)
    rcases selected with global | selective | scanned
    · exact absurd global.1 (by decide)
    · exact absurd selective.1.1 (by decide)
    · rcases scanned.2 1 (by decide) with ⟨event, member, first, next, answers, product⟩
      have asked := answers.sub
      rcases List.mem_append.mp member with member | member
      · cases List.mem_singleton.mp ((List.rtakeWhile_suffix _ _).subset member)
        subst asked
        exact absurd product (by decide)
      · cases List.mem_singleton.mp member
        subst asked
        exact absurd product (by decide)
  · intro since
    have selected := since ⟨1, 2, 3, 4⟩ unconfiguredNodeId
      [encodeFastscan 1 0 0 3, encodeSwitchGlobal true, encodeFastscan 0 fastscanInit 0 0,
        encodeSwitchGlobal false, encodeFastscan 4 0 3 0] _ _ (by rfl) [_, _, _, _] _ []
      (by rfl) (by rfl) (by rfl)
    rcases selected with global | selective | scanned
    · exact absurd global.1 (by decide)
    · exact absurd selective.1.1 (by decide)
    · rcases scanned.2 with ⟨event, member, first, next, answers, vendor⟩
      change event ∈ [_] at member
      cases List.mem_singleton.mp member
      exact absurd answers.full.specifier (by decide)

end CanOpen.Lss
