import MazdaPort.Safety.Machine

/-!
# MazdaPort.Safety.TxGate

What a frame satisfies that `safety_tx_hook` lets out, bus by bus. On the main bus every such
frame is `Authorised`. The `PANDA_NUCLEO` table also lists CRZ_INFO and CRZ_CTRL on the camera bus,
where no content check is made: `approved_authorised_iff` says that this is the only gap.
-/

namespace MazdaPort
namespace Safety

/-! ## Approval -/

theorem safetyTxHook_approved {fw : Firmware} {ts : UInt32} {msg : CANPacket} {s : SafetyState} :
    (safetyTxHook fw ts msg s).1 = true ↔
      txWhitelisted msg s = true ∧ s.relayMalfunction = false ∧
        ((fw.hooks s.currentHooks).tx ts msg s.toVars).1 = true := by
  unfold safetyTxHook
  by_cases hw : txWhitelisted msg s = true
  · rw [if_pos hw]
    simp [hw]
  · rw [if_neg hw]
    simp [hw]

/-- The transmit hook on the main bus: the steering checks for a 0x243, then the content checks. -/
theorem mazdaTxHook_main {ts : UInt32} {msg : CANPacket} {v : Vars}
    (hb : msg.bus.toNat = mazdaMain) :
    (mazdaTxHook ts msg v).1 = true ↔
      (msg.addr.toNat = mazdaLkas →
          (steerTorqueCmdChecks ts (lkasTorque msg) (-1) mazdaSteeringLimits v).1 = false) ∧
        mazdaTxRefused msg v = false := by
  have hsteer : ∀ w : Vars, ∀ st, mazdaTxRefused msg { w with steer := st } =
      mazdaTxRefused msg w := fun _ _ => rfl
  unfold mazdaTxHook
  rw [if_pos (by simp [hb])]
  by_cases ha : msg.addr.toNat = mazdaLkas
  · rw [if_pos (by simp [ha])]
    simp only [steerTorqueCmdChecks, hsteer, ha, forall_const, Bool.and_eq_true,
      Bool.not_eq_true']
  · rw [if_neg (by simp [ha])]
    simp [ha]

theorem mazdaTxHook_other (ts : UInt32) {msg : CANPacket} (v : Vars)
    (hb : msg.bus.toNat ≠ mazdaMain) : mazdaTxHook ts msg v = (true, v) := by
  unfold mazdaTxHook
  rw [if_neg (by simp [hb])]

theorem approved_main {fw : Firmware} {ts : UInt32} {msg : CANPacket} {s : SafetyState}
    (hm : s.currentHooks = .mazda) (hb : msg.bus.toNat = mazdaMain)
    (h : (safetyTxHook fw ts msg s).1 = true) :
    (msg.addr.toNat = mazdaLkas →
        (steerTorqueCmdChecks ts (lkasTorque msg) (-1) mazdaSteeringLimits s.toVars).1 = false) ∧
      mazdaTxRefused msg s.toVars = false := by
  obtain ⟨_, _, htx⟩ := safetyTxHook_approved.1 h
  rw [hm] at htx
  exact (mazdaTxHook_main hb).1 htx

theorem approved_lkas {fw : Firmware} {ts : UInt32} {msg : CANPacket} {s : SafetyState}
    (hm : s.currentHooks = .mazda) (hb : msg.bus.toNat = mazdaMain)
    (h : (safetyTxHook fw ts msg s).1 = true) (ha : msg.addr.toNat = mazdaLkas)
    (ht : lkasTorque msg ≠ 0) : s.controlsAllowed = true := by
  have hpass := (approved_main hm hb h).1 ha
  by_contra hoff
  have hoff' : s.controlsAllowed = false := by simpa using hoff
  simp only [steerTorqueCmdChecks, hoff'] at hpass
  exact ht (steerTorqueChecks_notAllowed hpass)

theorem approved_crzCtrl {fw : Firmware} {ts : UInt32} {msg : CANPacket} {s : SafetyState}
    (hm : s.currentHooks = .mazda) (hl : s.mazdaLongitudinal = true)
    (hb : msg.bus.toNat = mazdaMain) (h : (safetyTxHook fw ts msg s).1 = true)
    (ha : msg.addr.toNat = mazdaCrzCtrl) (hc : crzActive msg = true) :
    s.controlsAllowed = true := by
  have hrefused := (approved_main hm hb h).2
  by_contra hoff
  simp [mazdaTxRefused, ha, hl, hc, hoff] at hrefused

theorem approved_crzInfo {fw : Firmware} {ts : UInt32} {msg : CANPacket} {s : SafetyState}
    (hm : s.currentHooks = .mazda) (hl : s.mazdaLongitudinal = true)
    (hb : msg.bus.toNat = mazdaMain) (h : (safetyTxHook fw ts msg s).1 = true)
    (ha : msg.addr.toNat = mazdaCrzInfo) :
    (getLongitudinalAllowed s.toVars = true ∧ crzInfoAccel msg ≤ 2000 ∧
        -2000 ≤ crzInfoAccel msg) ∨ crzInfoAccel msg = mazdaAccelIdleSentinel := by
  have hrefused := (approved_main hm hb h).2
  have hchecks : longitudinalAccelChecks (crzInfoAccel msg) mazdaLongLimits s.toVars = false := by
    by_contra hviol
    simp [mazdaTxRefused, ha, hl, hviol] at hrefused
  exact longitudinalAccelChecks_false.1 hchecks

/-! ## No actuation without authority -/

structure Authorised (s : SafetyState) (msg : CANPacket) : Prop where
  accel : msg.addr.toNat = mazdaCrzInfo →
    crzInfoAccel msg = mazdaAccelIdleSentinel ∨
      (-2000 ≤ crzInfoAccel msg ∧ crzInfoAccel msg ≤ 2000 ∧
        s.controlsAllowed = true ∧ s.gasPressedPrev = false)
  cruise : msg.addr.toNat = mazdaCrzCtrl → crzActive msg = true → s.controlsAllowed = true
  torque : msg.addr.toNat = mazdaLkas → lkasTorque msg ≠ 0 → s.controlsAllowed = true

theorem approved_authorised {fw : Firmware} {s : SafetyState} (h : MazdaMode fw true s)
    {ts : UInt32} {msg : CANPacket} (hb : msg.bus.toNat = mazdaMain)
    (happ : (safetyTxHook fw ts msg s).1 = true) : Authorised s msg := by
  refine ⟨fun ha => ?_, approved_crzCtrl h.hooks h.longitudinal hb happ,
    approved_lkas h.hooks hb happ⟩
  rcases approved_crzInfo h.hooks h.longitudinal hb happ ha with ⟨hallowed, hhi, hlo⟩ | hidle
  · right
    simp only [getLongitudinalAllowed, Bool.and_eq_true, Bool.not_eq_true'] at hallowed
    exact ⟨hlo, hhi, hallowed.1, hallowed.2⟩
  · exact .inl hidle

def Event.staysLong : Event → Bool
  | .setMode mode param => mode == safetyMazda && paramLongitudinal param
  | _ => true

theorem step_staysLong {fw : Firmware} {s : SafetyState} (h : MazdaMode fw true s) {e : Event}
    (he : e.staysLong = true) : MazdaMode fw true (step fw s e) := by
  cases e with
  | setMode mode param =>
    simp only [Event.staysLong, Bool.and_eq_true, beq_iff_eq] at he
    obtain ⟨rfl, hl⟩ := he
    have hmode := mazdaStart_mode fw param s
    rwa [hl] at hmode
  | rx ts msg => exact step_mazdaMode h rfl
  | tx ts msg => exact step_mazdaMode h rfl
  | tick ts hb => exact step_mazdaMode h rfl

theorem run_staysLong (fw : Firmware) (s : SafetyState) {es : List Event}
    (hes : ∀ e ∈ es, e.staysLong = true) : MazdaMode fw true (run fw (mazdaStart fw 1 s) es) := by
  have hstep : ∀ s e, e.staysLong = true → MazdaMode fw true s →
      MazdaMode fw true (step fw s e) := fun _ _ he h => step_staysLong h he
  exact Run.run_inv_of_mem hstep (mazdaStart_mode fw 1 s) hes

theorem whitelisted_mazda {fw : Firmware} {long : Bool} {s : SafetyState}
    (h : MazdaMode fw long s) (msg : CANPacket) :
    txWhitelisted msg s = (mazdaTxTable fw.build long).any fun m => m.admits msg := by
  have h1 : (safetyMazda == safetyAlloutput) = false := by decide
  have h2 : (safetyMazda == safetyElm327) = false := by decide
  simp only [txWhitelisted, h.mode, h.txMsgs, h1, h2, Bool.or_false]

theorem whitelisted_bus {fw : Firmware} {long : Bool} {s : SafetyState}
    (h : MazdaMode fw long s) {msg : CANPacket} (hw : txWhitelisted msg s = true) :
    msg.bus.toNat = 0 ∨ msg.bus.toNat = 2 := by
  rw [whitelisted_mazda h, List.any_eq_true] at hw
  obtain ⟨m, hmem, hadm⟩ := hw
  have hbus : ∀ (b : Build) (l : Bool), ∀ m ∈ mazdaTxTable b l, m.bus = 0 ∨ m.bus = 2 := by
    rintro ⟨nucleo, mads, brake⟩ l
    cases nucleo <;> cases mads <;> cases brake <;> cases l <;> decide
  simp only [CanMsg.admits, Bool.and_eq_true, beq_iff_eq] at hadm
  rw [hadm.1.2]
  exact hbus fw.build long m hmem

def cameraBrake : CANPacket := .eightBytes 2 0x21b #v[0, 0, 0, 0, 0, 0, 0, 0]

theorem cameraBrake_not_authorised (s : SafetyState) : ¬ Authorised s cameraBrake := by
  intro h
  have haccel : crzInfoAccel cameraBrake = -4096 := by decide
  have hcases := h.accel rfl
  rw [haccel] at hcases
  rcases hcases with hidle | ⟨hlo, _⟩
  · exact absurd hidle (by decide)
  · omega

theorem cameraBrake_approved {fw : Firmware} {s : SafetyState} (h : MazdaMode fw true s)
    (hn : fw.build.pandaNucleo = true) (hr : s.relayMalfunction = false) (ts : UInt32) :
    (safetyTxHook fw ts cameraBrake s).1 = true := by
  have hw : txWhitelisted cameraBrake s = true := by
    rw [whitelisted_mazda h, List.any_eq_true]
    refine ⟨{ addr := mazdaCrzInfo, bus := 2, len := 8, checkRelay := false }, ?_, by decide⟩
    simp [mazdaTxTable, mazdaLongTxMsgs, hn]
  refine safetyTxHook_approved.2 ⟨hw, hr, ?_⟩
  rw [h.hooks]
  have hb : cameraBrake.bus.toNat ≠ mazdaMain := by decide
  have htx := mazdaTxHook_other ts s.toVars hb
  simp only [Firmware.hooks, mazdaHooks, htx]

/-- With the `PANDA_NUCLEO` tables, every frame approved for a bus is authorised exactly when the
bus is not the camera's or the relay latch blocks all frames. -/
theorem approved_authorised_iff {fw : Firmware} (hn : fw.build.pandaNucleo = true)
    (s : SafetyState) {es : List Event} (hes : ∀ e ∈ es, e.staysLong = true) (b : BitVec 3) :
    (∀ ts msg, msg.bus = b →
        (safetyTxHook fw ts msg (run fw (mazdaStart fw 1 s) es)).1 = true →
        Authorised (run fw (mazdaStart fw 1 s) es) msg) ↔
      b ≠ 2 ∨ (run fw (mazdaStart fw 1 s) es).relayMalfunction = true := by
  have h := run_staysLong fw s hes
  generalize run fw (mazdaStart fw 1 s) es = r at h ⊢
  constructor
  · intro hall
    by_contra hcon
    obtain ⟨hb, hr⟩ := not_or.1 hcon
    have hb' : cameraBrake.bus = b := by
      rw [not_not] at hb
      rw [hb]
      rfl
    have happ := cameraBrake_approved h hn (by simpa using hr) 0
    exact cameraBrake_not_authorised r (hall 0 cameraBrake hb' happ)
  · intro hcond ts msg hmb happ
    obtain ⟨hw, hr, _⟩ := safetyTxHook_approved.1 happ
    rcases whitelisted_bus h hw with hb | hb
    · exact approved_authorised h hb happ
    · rcases hcond with hne | hrel
      · refine absurd ?_ hne
        rw [← hmb]
        exact BitVec.eq_of_toNat_eq hb
      · rw [hr] at hrel
        cases hrel

def resPress : CANPacket := .eightBytes 0 0x09d #v[0x04, 0, 0, 0, 0, 0, 0, 0]

/-- A steering frame with a torque of 8, and one of the stock camera. -/
def torqueEight : CANPacket := .eightBytes 0 0x243 #v[0x08, 0x08, 0, 0, 0, 0, 0, 0]

def stockLkas : CANPacket := .eightBytes 0 0x243 #v[0x08, 0x01, 0, 0, 0, 0, 0, 0]

/-- RES arms, and a torque goes out. -/
def armedRun : List Event := [.rx 0 resPress, .tx 0 torqueEight]

/-- Two ticks later the stock camera is seen on the main bus. -/
def relayRun : List Event := armedRun ++ [.tick 0 true, .tick 0 true, .rx 0 stockLkas]

/-- Every frame of the main bus is authorised in the armed run, and every one of the camera bus once
the relay latch is set. -/
theorem approved_authorised_iff_runs :
    ((run Firmware.f407 (mazdaStart Firmware.f407 1 {}) armedRun).controlsAllowed = true ∧
        ∀ ts msg, msg.bus = 0 →
          (safetyTxHook Firmware.f407 ts msg
            (run Firmware.f407 (mazdaStart Firmware.f407 1 {}) armedRun)).1 = true →
          Authorised (run Firmware.f407 (mazdaStart Firmware.f407 1 {}) armedRun) msg) ∧
      ∀ ts msg, msg.bus = 2 →
        (safetyTxHook Firmware.f407 ts msg
          (run Firmware.f407 (mazdaStart Firmware.f407 1 {}) relayRun)).1 = true →
        Authorised (run Firmware.f407 (mazdaStart Firmware.f407 1 {}) relayRun) msg := by
  have hn : Firmware.f407.build.pandaNucleo = true := rfl
  have harmed : ∀ e ∈ armedRun, e.staysLong = true := by decide
  have hrelay : ∀ e ∈ relayRun, e.staysLong = true := by decide
  refine ⟨⟨by decide, ?_⟩, ?_⟩
  · exact (approved_authorised_iff hn {} harmed 0).2 (.inl (by decide))
  · exact (approved_authorised_iff hn {} hrelay 2).2 (.inr (by decide))

/-- Right after the mode is set, with control not allowed, full braking goes out on the camera
bus. -/
theorem cameraBrake_without_authority :
    ∃ ts msg, (safetyTxHook Firmware.f407 ts msg (mazdaStart Firmware.f407 1 {})).1 = true ∧
      (mazdaStart Firmware.f407 1 {}).controlsAllowed = false ∧
      ¬ Authorised (mazdaStart Firmware.f407 1 {}) msg :=
  ⟨0, cameraBrake, by decide, by decide, cameraBrake_not_authorised _⟩

end Safety
end MazdaPort
