import MazdaPort.Safety.Forward

/-!
# MazdaPort.Safety.Residue

What a mode change leaves of the sessions before it. `mazda_init` returns one of two static arrays
of receive checks, so the statuses in them survive a mode change unless `set_safety_hooks` clears
them. `Resident` is the safety layer with these arrays where they are in memory.

`mazda_noResidue`: after `set_safety_hooks(SAFETY_MAZDA, p)` no later frame, attempt, query or tick
tells two earlier histories apart.
-/

namespace MazdaPort
namespace Safety

/-! ## Static memory -/

/-- `rxArray` holds `mazda_rx_checks` and `mazda_long_rx_checks`, by the value of the param's flag;
`points` is the one `current_safety_config.rx_checks` points to, if to one of them. -/
structure Resident where
  safety : SafetyState
  rxArray : Bool → List RxCheck
  points : Option Bool

def Resident.powerOn (statics : List Int) : Resident :=
  { safety := Safety.powerOn statics, rxArray := mazdaRxTable, points := none }

/-- A write through the pointer. -/
def Resident.write (r : Resident) (s : SafetyState) : Resident :=
  { safety := s
    rxArray :=
      match r.points with
      | some long => Function.update r.rxArray long s.currentSafetyConfig.rxChecks
      | none => r.rxArray
    points := r.points }

def clearStatus (c : RxCheck) : RxCheck := { c with status := {} }

/-- `set_safety_hooks`: the Mazda mode takes its checks from the array, as it finds them. -/
def residentSetHooks (fw : Firmware) (mode param : UInt16) (r : Resident) : Resident :=
  let s := (setSafetyHooks fw mode param r.safety).2
  if mode == safetyMazda then
    let long := paramLongitudinal param
    let checks := (r.rxArray long).map clearStatus
    { safety :=
        { s with currentSafetyConfig := { s.currentSafetyConfig with rxChecks := checks } }
      rxArray := Function.update r.rxArray long checks
      points := some long }
  else { safety := s, rxArray := r.rxArray, points := none }

/-- What is called: the events of the safety layer, `safety_tick` by itself, and the forwarding
query of every frame received. -/
inductive Call where
  | event (e : Event)
  | safetyTick (ts : UInt32)
  | fwd (busNum addr : Nat)
  deriving DecidableEq, Repr

def Call.keepsMode : Call → Bool
  | .event e => e.keepsMode
  | _ => true

def callStep (fw : Firmware) (r : Resident) : Call → Resident
  | .event (.setMode mode param) => residentSetHooks fw mode param r
  | .event e => r.write (step fw r.safety e)
  | .safetyTick ts => r.write (Safety.safetyTick ts r.safety)
  | .fwd _ _ => r

/-- What a call returns. -/
inductive Result where
  | verdict (b : Bool)
  | destination (bus : Option Nat)
  | nothing
  deriving DecidableEq, Repr

def callResult (fw : Firmware) (r : Resident) : Call → Result
  | .event (.rx ts msg) => .verdict (safetyRxHook fw ts msg r.safety).1
  | .event (.tx ts msg) => .verdict (safetyTxHook fw ts msg r.safety).1
  | .fwd busNum addr => .destination (safetyFwdHook fw busNum addr r.safety)
  | _ => .nothing

/-- What is seen of a call: its result, and `controls_allowed` after it. -/
def callShows (fw : Firmware) (r : Resident) (c : Call) : Result × Bool :=
  (callResult fw r c, (callStep fw r c).safety.controlsAllowed)

/-! ## The arrays keep their messages -/

theorem observe_msg (msg : CANPacket) (c : RxCheck) : (c.observe msg).msg = c.msg := by
  unfold RxCheck.observe
  split
  · rfl
  · split <;> rfl

theorem getAddrCheckIndex_msg (msg : CANPacket) (cs : List RxCheck) :
    (getAddrCheckIndex msg cs).1.map RxCheck.msg = cs.map RxCheck.msg := by
  induction cs with
  | nil => rfl
  | cons c cs ih =>
    simp only [getAddrCheckIndex]
    split
    · simp [observe_msg]
    · simp [observe_msg, ih]

theorem modify_msg {f : RxCheck → RxCheck} (hf : ∀ c, (f c).msg = c.msg) (cs : List RxCheck)
    (i : Nat) : (cs.modify i f).map RxCheck.msg = cs.map RxCheck.msg := by
  induction cs generalizing i with
  | nil => simp
  | cons c cs ih =>
    cases i with
    | zero => simp [hf]
    | succ i => simp [ih]

theorem rxVerdict_msg (fw : Firmware) (ts : UInt32) (msg : CANPacket) (s : SafetyState) :
    (rxVerdict fw ts msg s).checks.map RxCheck.msg =
      s.currentSafetyConfig.rxChecks.map RxCheck.msg := by
  have hcheck : (rxMsgSafetyCheck (fw.hooks s.currentHooks) ts msg
      s.currentSafetyConfig.rxChecks).1.map RxCheck.msg =
        s.currentSafetyConfig.rxChecks.map RxCheck.msg := by
    have hget := getAddrCheckIndex_msg msg s.currentSafetyConfig.rxChecks
    unfold rxMsgSafetyCheck
    cases hr : getAddrCheckIndex msg s.currentSafetyConfig.rxChecks with
    | mk cs o =>
      rw [hr] at hget
      cases o with
      | none => exact hget
      | some i =>
        have hupd := fun c => (updateRxStatus_eq (fw.hooks s.currentHooks) ts msg c).1
        exact (modify_msg hupd cs i).trans hget
  simp only [rxVerdict]
  rw [getAddrCheckIndex_msg, hcheck]

theorem tickRxCheck_msg (ts : UInt32) (cs : List RxCheck) :
    (cs.map (tickRxCheck ts)).map RxCheck.msg = cs.map RxCheck.msg := by
  rw [List.map_map]
  rfl

theorem step_rxChecks_msg (fw : Firmware) (s : SafetyState) {e : Event}
    (he : e.keepsMode = true) :
    (step fw s e).currentSafetyConfig.rxChecks.map RxCheck.msg =
      s.currentSafetyConfig.rxChecks.map RxCheck.msg := by
  cases e with
  | rx ts msg => exact rxVerdict_msg fw ts msg s
  | tx ts msg =>
    simp only [step, safetyTxHook]
    split <;> rfl
  | tick ts hb =>
    obtain ⟨n, b, ht⟩ := step_tick_eq fw ts hb s
    rw [ht]
    exact tickRxCheck_msg ts _
  | setMode mode param => cases he

/-- The arrays hold the messages of the source, and what the configuration reads through its
pointer is what is in the array. -/
structure Kept (r : Resident) : Prop where
  msgs : ∀ long, (r.rxArray long).map RxCheck.msg = (mazdaRxTable long).map RxCheck.msg
  view : ∀ long, r.points = some long →
    r.safety.currentSafetyConfig.rxChecks = r.rxArray long

theorem Kept.write {r : Resident} (h : Kept r) {s : SafetyState}
    (hs : s.currentSafetyConfig.rxChecks.map RxCheck.msg =
      r.safety.currentSafetyConfig.rxChecks.map RxCheck.msg) : Kept (r.write s) := by
  refine ⟨fun long => ?_, fun long hp => ?_⟩
  · cases hp : r.points with
    | none =>
      simp only [Resident.write, hp]
      exact h.msgs long
    | some long' =>
      simp only [Resident.write, hp]
      by_cases heq : long = long'
      · subst heq
        rw [Function.update_self, hs, h.view long hp]
        exact h.msgs long
      · rw [Function.update_of_ne heq]
        exact h.msgs long
  · have hp' : r.points = some long := hp
    simp [Resident.write, hp']

theorem map_clearStatus_msg (cs : List RxCheck) :
    (cs.map clearStatus).map RxCheck.msg = cs.map RxCheck.msg := by
  rw [List.map_map]
  rfl

theorem kept_setHooks {fw : Firmware} {r : Resident} (h : Kept r) (mode param : UInt16) :
    Kept (residentSetHooks fw mode param r) := by
  unfold residentSetHooks
  split
  · refine ⟨fun long => ?_, fun long hp => ?_⟩
    · dsimp only
      by_cases heq : long = paramLongitudinal param
      · subst heq
        rw [Function.update_self, map_clearStatus_msg]
        exact h.msgs _
      · rw [Function.update_of_ne heq]
        exact h.msgs long
    · have hlong : paramLongitudinal param = long := Option.some.inj hp
      simp [hlong]
  · exact ⟨h.msgs, fun long hp => by cases hp⟩

theorem kept_step (fw : Firmware) (r : Resident) (c : Call) (h : Kept r) :
    Kept (callStep fw r c) := by
  cases c with
  | event e =>
    cases e with
    | setMode mode param => exact kept_setHooks h mode param
    | rx ts msg => exact h.write (step_rxChecks_msg fw r.safety rfl)
    | tx ts msg => exact h.write (step_rxChecks_msg fw r.safety rfl)
    | tick ts hb => exact h.write (step_rxChecks_msg fw r.safety rfl)
  | safetyTick ts => exact h.write (tickRxCheck_msg ts _)
  | fwd busNum addr => exact h

theorem kept_run (fw : Firmware) (statics : List Int) (cs : List Call) :
    Kept (Run.run (callStep fw) (.powerOn statics) cs) :=
  Run.run_inv (kept_step fw) ⟨fun _ => rfl, fun _ hp => by cases hp⟩ cs

/-- Clearing the statuses of an array that kept its messages gives the table of the source. -/
theorem Kept.cleared {r : Resident} (h : Kept r) (long : Bool) :
    (r.rxArray long).map clearStatus = mazdaRxTable long := by
  have hclear : ∀ cs : List RxCheck, cs.map clearStatus =
      (cs.map RxCheck.msg).map fun m => { msg := m } := by
    intro cs
    rw [List.map_map]
    rfl
  have htable : (mazdaRxTable long).map clearStatus = mazdaRxTable long := by
    cases long <;> rfl
  rw [hclear, h.msgs long, ← hclear, htable]

/-- The mode change of the board is the one of the safety layer. -/
theorem Kept.setMazda {fw : Firmware} {r : Resident} (h : Kept r) (param : UInt16) :
    (residentSetHooks fw safetyMazda param r).safety = mazdaStart fw param r.safety := by
  have hclear := h.cleared (paramLongitudinal param)
  have hstart := mazdaStart_eq fw param r.safety
  have hsafety : (residentSetHooks fw safetyMazda param r).safety =
      { mazdaStart fw param r.safety with
        currentSafetyConfig :=
          { (mazdaStart fw param r.safety).currentSafetyConfig with
            rxChecks := (r.rxArray (paramLongitudinal param)).map clearStatus } } := rfl
  rw [hsafety, hclear, hstart]

/-! ## Two histories -/

def Vars.withStatics (statics : List Int) (v : Vars) : Vars := { v with otherStatics := statics }

theorem revoke_withStatics (c : Bool) (x : List Int) (v : Vars) :
    (v.withStatics x).revoke c = (v.revoke c).withStatics x := by
  rw [Vars.revoke_eq, Vars.revoke_eq]
  rfl

theorem grant_withStatics (c : Bool) (x : List Int) (v : Vars) :
    (v.withStatics x).grant c = (v.grant c).withStatics x := by
  rw [Vars.grant_eq, Vars.grant_eq]
  rfl

theorem rxCrzCtrl_withStatics (b : Build) (msg : CANPacket) (x : List Int) (v : Vars) :
    rxCrzCtrl b msg (v.withStatics x) = (rxCrzCtrl b msg v).withStatics x := by
  have hl : (v.withStatics x).mazdaLongitudinal = v.mazdaLongitudinal := rfl
  unfold rxCrzCtrl
  rw [hl]
  split
  · cases b.mazdaMads with
    | true => cases b.mazdaMadsBrake <;> rfl
    | false =>
      simp only [pcmCruiseCheck, Vars.revoke_eq, Vars.grant_eq]
      rfl
  · rfl

theorem rxCrzBtns_withStatics (msg : CANPacket) (x : List Int) (v : Vars) :
    rxCrzBtns msg (v.withStatics x) = (rxCrzBtns msg v).withStatics x := by
  have hl : (v.withStatics x).mazdaLongitudinal = v.mazdaLongitudinal := rfl
  have harms : buttonArms msg (v.withStatics x) = buttonArms msg v := rfl
  unfold rxCrzBtns
  rw [hl]
  split
  · simp only [harms, grant_withStatics, revoke_withStatics]
    rfl
  · rfl

theorem rxPedals_withStatics (msg : CANPacket) (x : List Int) (v : Vars) :
    rxPedals msg (v.withStatics x) = (rxPedals msg v).withStatics x := by
  have hl : (v.withStatics x).mazdaLongitudinal = v.mazdaLongitudinal := rfl
  unfold rxPedals
  rw [hl]
  split
  · simp only [Vars.revoke_eq]
    split <;> rfl
  · rfl

theorem rxGas_withStatics (msg : CANPacket) (x : List Int) (v : Vars) :
    rxGas msg (v.withStatics x) = (rxGas msg v).withStatics x := by
  unfold rxGas
  split <;> rfl

theorem rxDriverTorque_withStatics (msg : CANPacket) (x : List Int) (v : Vars) :
    rxDriverTorque msg (v.withStatics x) = (rxDriverTorque msg v).withStatics x := by
  unfold rxDriverTorque
  split <;> rfl

theorem rxSpeed_withStatics (msg : CANPacket) (x : List Int) (v : Vars) :
    rxSpeed msg (v.withStatics x) = (rxSpeed msg v).withStatics x := by
  unfold rxSpeed
  split <;> rfl

/-- The Mazda hooks neither read nor write the memory of other cars' modes. -/
theorem mazdaRxHook_withStatics (b : Build) (msg : CANPacket) (x : List Int) (v : Vars) :
    mazdaRxHook b msg (v.withStatics x) = (mazdaRxHook b msg v).withStatics x := by
  unfold mazdaRxHook
  split
  · rw [rxSpeed_withStatics, rxDriverTorque_withStatics, rxCrzCtrl_withStatics,
      rxCrzBtns_withStatics, rxGas_withStatics, rxPedals_withStatics]
  · rfl

theorem mazdaTxHook_withStatics (ts : UInt32) (msg : CANPacket) (x : List Int) (v : Vars) :
    mazdaTxHook ts msg (v.withStatics x) =
      ((mazdaTxHook ts msg v).1, (mazdaTxHook ts msg v).2.withStatics x) := by
  unfold mazdaTxHook
  split
  · split <;> rfl
  · rfl

/-- `s'` is `s` but for the memory of other cars' modes, and for a count of mismatched heartbeats
that the next tick without authority clears. -/
structure Alike (s s' : SafetyState) : Prop where
  same : s' =
    { s with
      otherStatics := s'.otherStatics
      heartbeatEngagedMismatches := s'.heartbeatEngagedMismatches }
  mismatches : s.controlsAllowed = true →
    s'.heartbeatEngagedMismatches = s.heartbeatEngagedMismatches

theorem alike_mazdaStart (fw : Firmware) (param : UInt16) (s s' : SafetyState) :
    Alike (mazdaStart fw param s) (mazdaStart fw param s') := by
  rw [mazdaStart_eq, mazdaStart_eq]
  exact ⟨rfl, fun h => by cases h⟩

theorem Alike.toVars {s s' : SafetyState} (h : Alike s s') :
    s'.toVars = s.toVars.withStatics s'.otherStatics := by
  rw [h.same]
  rfl

section

variable {fw : Firmware} {s s' : SafetyState}

theorem Alike.rxVerdict (h : Alike s s') (ts : UInt32) (msg : CANPacket) :
    rxVerdict fw ts msg s' = rxVerdict fw ts msg s := by
  rw [h.same]
  rfl

theorem Alike.rxVars (h : Alike s s') (hm : s.currentHooks = .mazda) (ts : UInt32)
    (msg : CANPacket) :
    rxVars fw ts msg s' = (rxVars fw ts msg s).withStatics s'.otherStatics := by
  have hm' : s'.currentHooks = .mazda := by
    rw [h.same]
    exact hm
  have hgen : ∀ v : Vars, genericRxChecks (v.withStatics s'.otherStatics) =
      (genericRxChecks v).withStatics s'.otherStatics := by
    intro v
    rw [genericRxChecks_eq, genericRxChecks_eq]
    rfl
  have hvars := h.toVars
  generalize s'.otherStatics = x at hgen hvars ⊢
  simp only [Safety.rxVars, h.rxVerdict, hvars, hm, hm', Firmware.hooks, mazdaHooks,
    revoke_withStatics]
  split
  · rw [mazdaRxHook_withStatics, hgen]
  · rw [hgen]

theorem Alike.rx (h : Alike s s') (hm : s.currentHooks = .mazda) (ts : UInt32)
    (msg : CANPacket) : Alike (step fw s (.rx ts msg)) (step fw s' (.rx ts msg)) := by
  have hvars : Safety.rxVars fw ts msg s' =
      (Safety.rxVars fw ts msg s).withStatics s'.otherStatics := h.rxVars hm ts msg
  have hallowed : (Safety.rxVars fw ts msg s').controlsAllowed =
      (Safety.rxVars fw ts msg s).controlsAllowed := by
    rw [hvars]
    rfl
  have hprev : s'.controlsAllowed = s.controlsAllowed := by
    rw [h.same]
  refine ⟨?_, fun hon => ?_⟩
  · simp only [step, safetyRxHook, h.rxVerdict, hvars]
    rw [h.same]
    rfl
  · have hon' : (Safety.rxVars fw ts msg s).controlsAllowed = true := hon
    simp only [step, safetyRxHook, hallowed, hprev, hon', Bool.true_and]
    cases hc : s.controlsAllowed with
    | false => rfl
    | true => exact h.mismatches hc

theorem Alike.tx (h : Alike s s') (hm : s.currentHooks = .mazda) (ts : UInt32)
    (msg : CANPacket) :
    Alike (step fw s (.tx ts msg)) (step fw s' (.tx ts msg)) ∧
      (safetyTxHook fw ts msg s').1 = (safetyTxHook fw ts msg s).1 := by
  have hm' : s'.currentHooks = .mazda := by
    rw [h.same]
    exact hm
  have hw : txWhitelisted msg s' = txWhitelisted msg s := by
    rw [h.same]
    rfl
  have hr : s'.relayMalfunction = s.relayMalfunction := by
    rw [h.same]
  have htx : mazdaTxHook ts msg s'.toVars = ((mazdaTxHook ts msg s.toVars).1,
      (mazdaTxHook ts msg s.toVars).2.withStatics s'.otherStatics) := by
    rw [← mazdaTxHook_withStatics, ← h.toVars]
  simp only [step, safetyTxHook, hw, hr, hm, hm', Firmware.hooks, mazdaHooks, htx]
  split
  · obtain ⟨st, hst⟩ := mazdaTxHook_vars ts msg s.toVars
    refine ⟨⟨?_, ?_⟩, rfl⟩
    · rw [h.same]
      rfl
    · rw [hst]
      exact h.mismatches
  · exact ⟨h, rfl⟩

theorem Alike.safetyTick (h : Alike s s') (ts : UInt32) :
    Alike (safetyTick ts s) (safetyTick ts s') := by
  refine ⟨?_, fun hon => ?_⟩
  · simp only [Safety.safetyTick]
    rw [h.same]
  · simp only [Safety.safetyTick, Bool.and_eq_true] at hon ⊢
    exact h.mismatches hon.1

theorem Alike.tick (h : Alike s s') (ts : UInt32) (hb : Bool) :
    Alike (step fw s (.tick ts hb)) (step fw s' (.tick ts hb)) := by
  have hcheck : Alike (heartbeatCheck hb s) (heartbeatCheck hb s') := by
    have hallowed : s'.controlsAllowed = s.controlsAllowed := by
      rw [h.same]
    by_cases hc : (s.controlsAllowed && !hb) = true
    · have hn := h.mismatches (by simp only [Bool.and_eq_true] at hc; exact hc.1)
      simp only [heartbeatCheck, hallowed, hc, if_true, hn]
      refine ⟨?_, fun _ => rfl⟩
      rw [h.same]
    · simp only [heartbeatCheck, hallowed, if_neg hc]
      refine ⟨?_, fun _ => rfl⟩
      rw [h.same]
  have hcnt : Alike
      { heartbeatCheck hb s with safetyModeCnt := (heartbeatCheck hb s).safetyModeCnt + 1 }
      { heartbeatCheck hb s' with safetyModeCnt := (heartbeatCheck hb s').safetyModeCnt + 1 } := by
    refine ⟨?_, hcheck.mismatches⟩
    rw [hcheck.same]
  exact hcnt.safetyTick ts

end

/-- Two boards in the Mazda mode that are alike to their safety layers. -/
structure MazdaAlike (r r' : Resident) : Prop where
  alike : Alike r.safety r'.safety
  hooks : r.safety.currentHooks = .mazda

theorem mazdaAlike_step (fw : Firmware) (r r' : Resident) (c : Call) (hc : c.keepsMode = true)
    (h : MazdaAlike r r') : MazdaAlike (callStep fw r c) (callStep fw r' c) := by
  cases c with
  | event e =>
    cases e with
    | setMode mode param => cases hc
    | rx ts msg => exact ⟨h.alike.rx h.hooks ts msg, h.hooks⟩
    | tx ts msg =>
      refine ⟨(h.alike.tx h.hooks ts msg).1, ?_⟩
      exact (tx_sameMode fw ts msg r.safety).currentHooks.trans h.hooks
    | tick ts hb =>
      refine ⟨@Alike.tick fw _ _ h.alike ts hb, ?_⟩
      exact (step_sameMode fw r.safety (e := .tick ts hb) rfl).currentHooks.trans h.hooks
  | safetyTick ts => exact ⟨h.alike.safetyTick ts, h.hooks⟩
  | fwd busNum addr => exact h

theorem callResult_congr (fw : Firmware) (r r' : Resident) (c : Call)
    (h : MazdaAlike r r') : callResult fw r c = callResult fw r' c := by
  cases c with
  | event e =>
    cases e with
    | setMode mode param => rfl
    | rx ts msg =>
      simp only [callResult, safetyRxHook, h.alike.rxVerdict]
    | tx ts msg =>
      simp only [callResult, (@Alike.tx fw _ _ h.alike h.hooks ts msg).2]
    | tick ts hb => rfl
  | safetyTick ts => rfl
  | fwd busNum addr =>
    have hfwd : safetyFwdHook fw busNum addr r'.safety =
        safetyFwdHook fw busNum addr r.safety := by
      have hnone : (fw.hooks .mazda).fwd = none := rfl
      rw [h.alike.same]
      simp only [safetyFwdHook, h.hooks, hnone]
    simp only [callResult, hfwd]

theorem callShows_congr (fw : Firmware) (r r' : Resident) (c : Call) (hc : c.keepsMode = true)
    (h : MazdaAlike r r') : callShows fw r c = callShows fw r' c := by
  have hstep := (mazdaAlike_step fw r r' c hc h).alike.same
  have hallowed : (callStep fw r' c).safety.controlsAllowed =
      (callStep fw r c).safety.controlsAllowed := by
    rw [hstep]
  simp only [callShows, callResult_congr fw r r' c h, hallowed]

/-- After `set_safety_hooks(SAFETY_MAZDA, param)` the earlier history of the board cannot be told
from what it does. -/
theorem mazda_noResidue (fw : Firmware) (statics statics' : List Int) (past past' : List Call)
    (param : UInt16) {calls : List Call} (hcalls : ∀ c ∈ calls, c.keepsMode = true) :
    Run.trace (callStep fw) (callShows fw)
        (residentSetHooks fw safetyMazda param
          (Run.run (callStep fw) (.powerOn statics) past)) calls =
      Run.trace (callStep fw) (callShows fw)
        (residentSetHooks fw safetyMazda param
          (Run.run (callStep fw) (.powerOn statics') past')) calls := by
  have hk := kept_run fw statics past
  have hk' := kept_run fw statics' past'
  refine Run.trace_congr (R := MazdaAlike) (E := fun c => c.keepsMode = true)
    (mazdaAlike_step fw) (callShows_congr fw) ⟨?_, ?_⟩ hcalls
  · rw [hk.setMazda, hk'.setMazda]
    exact alike_mazdaStart fw param _ _
  · rw [hk.setMazda]
    exact (mazdaStart_mode fw param _).hooks

theorem mazda_noResidue_resPress :
    Run.trace (callStep Firmware.f407) (callShows Firmware.f407)
        (residentSetHooks Firmware.f407 safetyMazda 1
          (Run.run (callStep Firmware.f407) (.powerOn []) (brakeWhileMoving.map .event)))
        [.event (.rx 0 resPress), .fwd 2 mazdaLkas] =
      Run.trace (callStep Firmware.f407) (callShows Firmware.f407)
        (residentSetHooks Firmware.f407 safetyMazda 1
          (Run.run (callStep Firmware.f407) (.powerOn []) []))
        [.event (.rx 0 resPress), .fwd 2 mazdaLkas] :=
  mazda_noResidue Firmware.f407 [] [] (brakeWhileMoving.map .event) [] 1 (by decide)

end Safety
end MazdaPort
