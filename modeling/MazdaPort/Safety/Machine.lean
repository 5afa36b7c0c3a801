import MazdaPort.Lib.Run
import MazdaPort.Safety.Hooks

/-!
# MazdaPort.Safety.Machine

The safety layer as a state machine: received frames, transmit attempts, 1 Hz ticks and mode
changes, in any order, each with an arbitrary reading of the microsecond timer.

`MazdaMode` is the invariant of a stay in `SAFETY_MAZDA`: the tables are the ones `mazda_init`
built, whatever the status fields of the receive checks have become. `accepted_iff` reads off it
which frames reach `mazda_rx_hook`.
-/

namespace MazdaPort
namespace Safety

inductive Event where
  | rx (ts : UInt32) (msg : CANPacket)
  | tx (ts : UInt32) (msg : CANPacket)
  | tick (ts : UInt32) (heartbeatEngaged : Bool)
  | setMode (mode param : UInt16)
  deriving DecidableEq, Repr

def step (fw : Firmware) (s : SafetyState) : Event → SafetyState
  | .rx ts msg => (safetyRxHook fw ts msg s).2
  | .tx ts msg => (safetyTxHook fw ts msg s).2
  | .tick ts heartbeatEngaged => tickHandler ts heartbeatEngaged s
  | .setMode mode param => (setSafetyHooks fw mode param s).2

abbrev run (fw : Firmware) (s : SafetyState) (es : List Event) : SafetyState :=
  Run.run (step fw) s es

/-- The state `set_safety_hooks(SAFETY_MAZDA, param)` leaves, from whatever state it is called. -/
def mazdaStart (fw : Firmware) (param : UInt16) (s : SafetyState) : SafetyState :=
  (setSafetyHooks fw safetyMazda param s).2

/-! ## What each event leaves alone -/

/-- The mode and its tables, up to the status fields of the receive checks. -/
structure SameMode (s s' : SafetyState) : Prop where
  currentHooks : s'.currentHooks = s.currentHooks
  currentSafetyMode : s'.currentSafetyMode = s.currentSafetyMode
  txMsgs : s'.currentSafetyConfig.txMsgs = s.currentSafetyConfig.txMsgs
  disableForwarding :
    s'.currentSafetyConfig.disableForwarding = s.currentSafetyConfig.disableForwarding

theorem tx_sameMode (fw : Firmware) (ts : UInt32) (msg : CANPacket) (s : SafetyState) :
    SameMode s (step fw s (.tx ts msg)) := by
  simp only [step, safetyTxHook]
  split <;> exact ⟨rfl, rfl, rfl, rfl⟩

theorem heartbeatCheck_eq (h : Bool) (s : SafetyState) :
    ∃ (n : UInt32) (b : Bool), heartbeatCheck h s =
      { s with heartbeatEngagedMismatches := n, controlsAllowed := s.controlsAllowed && b } := by
  unfold heartbeatCheck
  split
  · exact ⟨_, _, rfl⟩
  · exact ⟨0, true, by simp⟩

/-- A tick moves counters and statuses, and can only withdraw authority. -/
theorem step_tick_eq (fw : Firmware) (ts : UInt32) (h : Bool) (s : SafetyState) :
    ∃ (n : UInt32) (b : Bool), step fw s (.tick ts h) =
      { s with
        heartbeatEngagedMismatches := n
        controlsAllowed := s.controlsAllowed && b
        safetyModeCnt := s.safetyModeCnt + 1
        safetyRxChecksInvalid := tickInvalid ts s.currentSafetyConfig.rxChecks
        currentSafetyConfig :=
          { s.currentSafetyConfig with
            rxChecks := s.currentSafetyConfig.rxChecks.map (tickRxCheck ts) } } := by
  obtain ⟨n, b, hb⟩ := heartbeatCheck_eq h s
  refine ⟨n, b && !tickInvalid ts s.currentSafetyConfig.rxChecks, ?_⟩
  simp only [step, tickHandler, hb, safetyTick, Bool.and_assoc]

/-! ## Receive checks with a single alternative -/

def RxCheck.only (c : RxCheck) : CanMsgCheck := c.msg.headD CanMsgCheck.zero

/-- A receive check with one alternative, whose status points to it. All of Mazda's are. -/
structure Single (c : RxCheck) : Prop where
  msg : c.msg = [c.only, CanMsgCheck.zero, CanMsgCheck.zero]
  addr : c.only.addr ≠ 0
  index : c.status.index = 0

theorem Single.current {c : RxCheck} (h : Single c) : c.current = c.only := by
  unfold RxCheck.current
  rw [h.index, h.msg]
  rfl

theorem Single.of_eq {c c' : RxCheck} (h : Single c) (hm : c'.msg = c.msg)
    (hi : c'.status.index = c.status.index) : Single c' := by
  have ho : c'.only = c.only := by simp [RxCheck.only, hm]
  exact ⟨by rw [hm, ho, h.msg], by rw [ho]; exact h.addr, by rw [hi, h.index]⟩

theorem Single.observe {c : RxCheck} (h : Single c) (msg : CANPacket) :
    Single (c.observe msg) ∧ (c.observe msg).msg = c.msg ∧
      ((c.observe msg).status.msgSeen && (c.observe msg).current.admits msg) =
        c.only.admits msg := by
  have hfilter : c.msg.takeWhile (fun m => m.addr != 0) = [c.only] := by
    rw [h.msg]
    simp [h.addr, CanMsgCheck.zero]
  unfold RxCheck.observe
  by_cases hs : c.status.msgSeen
  · rw [if_pos hs]
    exact ⟨h, rfl, by rw [hs, h.current]; rfl⟩
  · rw [if_neg hs, hfilter]
    by_cases ha : c.only.admits msg
    · have hfind : [c.only].findIdx? (fun m => m.admits msg) = some 0 := by
        simp [List.findIdx?_cons, ha]
      rw [hfind]
      have hsingle : Single { c with status := { c.status with index := 0, msgSeen := true } } :=
        h.of_eq rfl h.index.symm
      refine ⟨hsingle, rfl, ?_⟩
      rw [hsingle.current]
      simp [RxCheck.only]
    · have hfind : [c.only].findIdx? (fun m => m.admits msg) = none := by
        simp [List.findIdx?_cons, ha]
      rw [hfind]
      refine ⟨h, rfl, ?_⟩
      simp [hs, ha]

/-- The address lookup over checks with one alternative each: it keeps them so, it finds an entry
exactly when one admits the message, and the entry it finds does. -/
theorem getAddrCheckIndex_single (msg : CANPacket) (cs : List RxCheck)
    (h : ∀ c ∈ cs, Single c) :
    (∀ c ∈ (getAddrCheckIndex msg cs).1, Single c) ∧
      (getAddrCheckIndex msg cs).1.map RxCheck.msg = cs.map RxCheck.msg ∧
      ((getAddrCheckIndex msg cs).2.isSome ↔ ∃ c ∈ cs, c.only.admits msg) ∧
      ∀ i, (getAddrCheckIndex msg cs).2 = some i →
        ∃ c, (getAddrCheckIndex msg cs).1[i]? = some c := by
  induction cs with
  | nil => simp [getAddrCheckIndex]
  | cons c cs ih =>
    obtain ⟨ih1, ih2, ih3, ih4⟩ := ih fun c' hc' => h c' (List.mem_cons_of_mem c hc')
    obtain ⟨ho1, ho2, ho3⟩ := (h c List.mem_cons_self).observe msg
    simp only [getAddrCheckIndex, ho3]
    by_cases ha : c.only.admits msg
    · rw [if_pos ha]
      refine ⟨?_, ?_, ?_, ?_⟩
      · intro c' hc'
        rcases List.mem_cons.1 hc' with rfl | hc'
        · exact ho1
        · exact h c' (List.mem_cons_of_mem c hc')
      · simp [ho2]
      · simp [ha]
      · rintro i hi
        cases hi
        exact ⟨_, rfl⟩
    · rw [if_neg ha]
      refine ⟨?_, ?_, ?_, ?_⟩
      · intro c' hc'
        rcases List.mem_cons.1 hc' with rfl | hc'
        · exact ho1
        · exact ih1 c' hc'
      · simp [ho2, ih2]
      · simp [ha, ih3]
      · rintro i hi
        obtain ⟨j, hj, rfl⟩ := Option.map_eq_some_iff.1 hi
        simpa using ih4 j hj

theorem counterCheck_eq (hooks : SafetyHooks) (msg : CANPacket) (c : RxCheck) :
    (counterCheck hooks msg c).msg = c.msg ∧
      (counterCheck hooks msg c).status.index = c.status.index := by
  unfold counterCheck
  split <;> exact ⟨rfl, rfl⟩

theorem updateRxStatus_eq (hooks : SafetyHooks) (ts : UInt32) (msg : CANPacket) (c : RxCheck) :
    (updateRxStatus hooks ts msg c).msg = c.msg ∧
      (updateRxStatus hooks ts msg c).status.index = c.status.index := by
  obtain ⟨h1, h2⟩ := counterCheck_eq hooks msg (checksumCheck hooks msg (updateAddrTimestamp ts c))
  exact ⟨h1, h2⟩

theorem modify_single {f : RxCheck → RxCheck}
    (hf : ∀ c, (f c).msg = c.msg ∧ (f c).status.index = c.status.index) {cs : List RxCheck}
    (h : ∀ c ∈ cs, Single c) (i : Nat) :
    (∀ c ∈ cs.modify i f, Single c) ∧ (cs.modify i f).map RxCheck.msg = cs.map RxCheck.msg := by
  constructor
  · intro c hc
    obtain ⟨j, hj⟩ := List.mem_iff_getElem?.1 hc
    rw [List.getElem?_modify] at hj
    cases hcj : cs[j]? with
    | none => rw [hcj] at hj; cases hj
    | some c' =>
      have hmem : c' ∈ cs := List.mem_of_getElem? hcj
      rw [hcj] at hj
      by_cases hij : i = j
      · simp only [hij, if_true, Option.map_eq_map, Option.map_some, Option.some.injEq] at hj
        subst hj
        exact (h c' hmem).of_eq (hf c').1 (hf c').2
      · simp only [if_neg hij, Option.map_eq_map, Option.map_some, Option.some.injEq] at hj
        subst hj
        exact h c' hmem
  · apply List.ext_getElem?
    intro j
    simp only [List.getElem?_map, List.getElem?_modify]
    cases cs[j]? with
    | none => rfl
    | some c' =>
      by_cases hij : i = j <;> simp [hij, (hf c').1]

/-- Mazda's checks test nothing but the address, so an entry just found is valid. -/
structure Unchecked (m : CanMsgCheck) : Prop where
  checksum : m.ignoreChecksum = true
  counter : m.ignoreCounter = true
  qualityFlag : m.ignoreQualityFlag = true

theorem updateRxStatus_valid (b : Build) (ts : UInt32) (msg : CANPacket) {c : RxCheck}
    (h : Unchecked c.current) : (updateRxStatus (mazdaHooks b) ts msg c).valid = true := by
  have h1 : c.current.ignoreChecksum = true := h.checksum
  have h2 : c.current.ignoreCounter = true := h.counter
  have h3 : c.current.ignoreQualityFlag = true := h.qualityFlag
  simp only [RxCheck.current, List.getD_eq_getElem?_getD] at h1 h2 h3
  simp [updateRxStatus, qualityFlagCheck, counterCheck, checksumCheck, updateAddrTimestamp,
    RxCheck.valid, mazdaHooks, RxCheck.current, h1, h2, h3, maxWrongCounters]

/-! ## A stay in `SAFETY_MAZDA` -/

def mazdaRxTable (long : Bool) : List RxCheck :=
  if long then mazdaLongRxChecks else mazdaRxChecks

def mazdaTxTable (b : Build) (long : Bool) : List CanMsg :=
  if long then mazdaLongTxMsgs b else mazdaTxMsgs b

def mazdaRxAddrs (long : Bool) : List Nat :=
  (if long then [] else [mazdaCrzCtrl]) ++
    [mazdaCrzBtns, mazdaSteerTorque, mazdaEngineData, mazdaPedals]

structure MazdaChecks (long : Bool) (cs : List RxCheck) : Prop where
  msgs : cs.map RxCheck.msg = (mazdaRxTable long).map RxCheck.msg
  single : ∀ c ∈ cs, Single c

/-- The invariant of a stay in `SAFETY_MAZDA` with the longitudinal param `long`. -/
structure MazdaMode (fw : Firmware) (long : Bool) (s : SafetyState) : Prop where
  hooks : s.currentHooks = .mazda
  mode : s.currentSafetyMode = safetyMazda
  txMsgs : s.currentSafetyConfig.txMsgs = mazdaTxTable fw.build long
  rxChecks : MazdaChecks long s.currentSafetyConfig.rxChecks
  longitudinal : s.mazdaLongitudinal = long

theorem MazdaChecks.only {long : Bool} {cs : List RxCheck} (h : MazdaChecks long cs) :
    cs.map RxCheck.only = (mazdaRxTable long).map RxCheck.only := by
  have hm := congrArg (List.map fun m => m.headD CanMsgCheck.zero) h.msgs
  rw [List.map_map, List.map_map] at hm
  exact hm

theorem MazdaChecks.of_eq {long : Bool} {cs cs' : List RxCheck} (h : MazdaChecks long cs)
    (hm : cs'.map RxCheck.msg = cs.map RxCheck.msg) (hs : ∀ c ∈ cs', Single c) :
    MazdaChecks long cs' := ⟨hm.trans h.msgs, hs⟩

theorem mazdaRxMsg_admits (addr frequency : Nat) (msg : CANPacket) :
    (mazdaRxMsg addr frequency).admits msg = true ↔
      msg.addr.toNat = addr ∧ msg.bus.toNat = 0 ∧ msg.getLen = 8 := by
  simp only [CanMsgCheck.admits, mazdaRxMsg, Bool.and_eq_true, beq_iff_eq, and_assoc]

theorem MazdaChecks.admits {long : Bool} {cs : List RxCheck} (h : MazdaChecks long cs)
    (msg : CANPacket) :
    (∃ c ∈ cs, c.only.admits msg) ↔
      msg.addr.toNat ∈ mazdaRxAddrs long ∧ msg.bus.toNat = 0 ∧ msg.getLen = 8 := by
  have hiff : (∃ c ∈ cs, c.only.admits msg) ↔ ∃ m ∈ cs.map RxCheck.only, m.admits msg := by
    simp
  rw [hiff, h.only]
  have htable : (mazdaRxTable long).map RxCheck.only =
      (if long then [] else [mazdaRxMsg mazdaCrzCtrl 50]) ++
        [mazdaRxMsg mazdaCrzBtns 10, mazdaRxMsg mazdaSteerTorque 83,
          mazdaRxMsg mazdaEngineData 100, mazdaRxMsg mazdaPedals 50] := by
    cases long <;> rfl
  rw [htable, mazdaRxAddrs]
  -- the bus and the length are the same in every check
  cases long with
  | true => simp [mazdaRxMsg_admits, ← or_and_right]
  | false => simp [mazdaRxMsg_admits, ← or_and_right]

theorem MazdaChecks.unchecked {long : Bool} {cs : List RxCheck} (h : MazdaChecks long cs) :
    ∀ c ∈ cs, Unchecked c.current := by
  intro c hc
  rw [(h.single c hc).current]
  have hmem : c.only ∈ (mazdaRxTable long).map RxCheck.only := by
    rw [← h.only]
    exact List.mem_map_of_mem hc
  have htable : ∀ m ∈ (mazdaRxTable long).map RxCheck.only,
      m.ignoreChecksum = true ∧ m.ignoreCounter = true ∧ m.ignoreQualityFlag = true := by
    cases long <;> decide
  obtain ⟨h1, h2, h3⟩ := htable _ hmem
  exact ⟨h1, h2, h3⟩

theorem rxVerdict_mazda {fw : Firmware} {long : Bool} {s : SafetyState}
    (h : MazdaMode fw long s) (ts : UInt32) (msg : CANPacket) :
    MazdaChecks long (rxVerdict fw ts msg s).checks ∧ (rxVerdict fw ts msg s).valid = true ∧
      ((rxVerdict fw ts msg s).accepted = true ↔
        msg.addr.toNat ∈ mazdaRxAddrs long ∧ msg.bus.toNat = 0 ∧ msg.getLen = 8) := by
  have hc := h.rxChecks
  obtain ⟨hs1, hm1, hfound, hget⟩ := getAddrCheckIndex_single msg _ hc.single
  have hc1 := hc.of_eq hm1 hs1
  have key : MazdaChecks long (rxMsgSafetyCheck (fw.hooks s.currentHooks) ts msg
        s.currentSafetyConfig.rxChecks).1 ∧
      (rxMsgSafetyCheck (fw.hooks s.currentHooks) ts msg
        s.currentSafetyConfig.rxChecks).2 = true := by
    unfold rxMsgSafetyCheck
    cases hr : getAddrCheckIndex msg s.currentSafetyConfig.rxChecks with
    | mk cs o =>
      rw [hr] at hc1 hget
      cases o with
      | none => exact ⟨hc1, rfl⟩
      | some i =>
        obtain ⟨c, hci⟩ := hget i rfl
        have hun := hc1.unchecked c (List.mem_of_getElem? hci)
        obtain ⟨hs2, hm2⟩ := modify_single
          (updateRxStatus_eq (fw.hooks s.currentHooks) ts msg) hc1.single i
        refine ⟨hc1.of_eq hm2 hs2, ?_⟩
        have hv := updateRxStatus_valid fw.build ts msg hun
        simp only at hci
        simp [hci, h.hooks, Firmware.hooks, hv]
  obtain ⟨hs2, hm2, hfound2, _⟩ := getAddrCheckIndex_single msg _ key.1.single
  refine ⟨key.1.of_eq hm2 hs2, key.2, ?_⟩
  simp only [rxVerdict, key.2, Bool.true_and]
  rw [hfound2, key.1.admits]

theorem accepted_iff {fw : Firmware} {long : Bool} {s : SafetyState} (h : MazdaMode fw long s)
    (ts : UInt32) (msg : CANPacket) :
    (rxVerdict fw ts msg s).accepted = true ↔
      msg.addr.toNat ∈ mazdaRxAddrs long ∧ msg.bus.toNat = 0 ∧ msg.getLen = 8 :=
  (rxVerdict_mazda h ts msg).2.2

def Event.keepsMode : Event → Bool
  | .setMode _ _ => false
  | _ => true

theorem mazdaStart_eq (fw : Firmware) (param : UInt16) (s : SafetyState) :
    mazdaStart fw param s =
      { s with
        toVars :=
          { mazdaLongitudinal := paramLongitudinal param, otherStatics := s.otherStatics }
        safetyModeCnt := 0
        relayMalfunction := false
        safetyRxChecksInvalid := false
        currentHooks := .mazda
        currentSafetyMode := safetyMazda
        currentSafetyParam := param
        currentSafetyConfig :=
          { rxChecks := mazdaRxTable (paramLongitudinal param)
            txMsgs := mazdaTxTable fw.build (paramLongitudinal param) } } := by
  have hreg : fw.registry safetyMazda = some .mazda := by
    simp [Firmware.registry, safetySilent, safetyNooutput, safetyMazda]
  unfold mazdaStart setSafetyHooks
  simp only [hreg, Firmware.hooks, mazdaHooks, mazdaInit, Vars.reset, mazdaRxTable, mazdaTxTable]
  cases paramLongitudinal param <;> rfl

theorem mazdaStart_mode (fw : Firmware) (param : UInt16) (s : SafetyState) :
    MazdaMode fw (paramLongitudinal param) (mazdaStart fw param s) := by
  rw [mazdaStart_eq]
  refine ⟨rfl, rfl, rfl, ⟨rfl, ?_⟩, rfl⟩
  have hsingle : ∀ a f, a ≠ 0 → Single (mazdaRxCheck a f) := fun a f ha => ⟨rfl, ha, rfl⟩
  intro c hc
  cases hl : paramLongitudinal param <;>
    simp only [hl, mazdaRxTable, mazdaRxChecks, mazdaLongRxChecks, if_true, if_false,
      List.mem_cons, List.not_mem_nil, or_false, Bool.false_eq_true] at hc <;>
    rcases hc with rfl | rfl | rfl | rfl | rfl <;> exact hsingle _ _ (by decide)

theorem rxVars_mazda {fw : Firmware} {long : Bool} {s : SafetyState} (h : MazdaMode fw long s)
    (ts : UInt32) (msg : CANPacket) :
    rxVars fw ts msg s =
      genericRxChecks
        (if (rxVerdict fw ts msg s).accepted then mazdaRxHook fw.build msg s.toVars
          else s.toVars) := by
  simp only [rxVars, (rxVerdict_mazda h ts msg).2.1, Vars.revoke, Bool.not_true, if_false,
    Bool.false_eq_true, h.hooks, Firmware.hooks, mazdaHooks]

theorem rxVars_frame {fw : Firmware} {long : Bool} {s : SafetyState} (h : MazdaMode fw long s)
    (ts : UInt32) (msg : CANPacket) :
    (rxVars fw ts msg s).steer = s.steer ∧
      (rxVars fw ts msg s).mazdaLongitudinal = s.mazdaLongitudinal ∧
      (rxVars fw ts msg s).regenBraking = s.regenBraking ∧
      (rxVars fw ts msg s).steeringDisengage = s.steeringDisengage := by
  rw [rxVars_mazda h, genericRxChecks_eq]
  split
  · have hf := mazdaRxHook_frame fw.build msg s.toVars
    exact ⟨hf.steer, hf.mazdaLongitudinal, hf.regenBraking, hf.steeringDisengage⟩
  · exact ⟨rfl, rfl, rfl, rfl⟩

theorem step_tx_mazda (fw : Firmware) {s : SafetyState} (h : s.currentHooks = .mazda)
    (ts : UInt32) (msg : CANPacket) :
    ∃ st, step fw s (.tx ts msg) = { s with toVars := { s.toVars with steer := st } } := by
  simp only [step, safetyTxHook]
  split
  · obtain ⟨st, hst⟩ := mazdaTxHook_vars ts msg s.toVars
    refine ⟨st, ?_⟩
    simp only [h, Firmware.hooks, mazdaHooks, hst]
  · exact ⟨s.steer, rfl⟩

theorem map_tickRxCheck {cs : List RxCheck} (ts : UInt32) (h : ∀ c ∈ cs, Single c) :
    (cs.map (tickRxCheck ts)).map RxCheck.msg = cs.map RxCheck.msg ∧
      ∀ c ∈ cs.map (tickRxCheck ts), Single c := by
  constructor
  · rw [List.map_map]
    rfl
  · intro c hc
    obtain ⟨c', hc', rfl⟩ := List.mem_map.1 hc
    exact (h c' hc').of_eq rfl rfl

theorem step_mazdaMode {fw : Firmware} {long : Bool} {s : SafetyState} (h : MazdaMode fw long s)
    {e : Event} (he : e.keepsMode = true) : MazdaMode fw long (step fw s e) := by
  cases e with
  | rx ts msg =>
    exact ⟨h.hooks, h.mode, h.txMsgs, (rxVerdict_mazda h ts msg).1,
      (rxVars_frame h ts msg).2.1.trans h.longitudinal⟩
  | tx ts msg =>
    obtain ⟨st, hst⟩ := step_tx_mazda fw h.hooks ts msg
    rw [hst]
    exact ⟨h.hooks, h.mode, h.txMsgs, h.rxChecks, h.longitudinal⟩
  | tick ts hb =>
    obtain ⟨n, b, ht⟩ := step_tick_eq fw ts hb s
    obtain ⟨hm, hs⟩ := map_tickRxCheck ts h.rxChecks.single
    rw [ht]
    exact ⟨h.hooks, h.mode, h.txMsgs, h.rxChecks.of_eq hm hs, h.longitudinal⟩
  | setMode mode param => cases he

end Safety
end MazdaPort
