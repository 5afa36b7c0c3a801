import MazdaPort.Safety.Authority

/-!
# MazdaPort.Safety.MadsBrake

The gate of a build with `MAZDA_MADS` and `MAZDA_MADS_BRAKE`, without the longitudinal param.

`mazda_rx_hook` takes the authority from cruise main alone (`mazdaRxHook_madsBrake`), but the
generic checks of `safety.h` run after it in the same reception. `keepsLateral_iff`: a run keeps
lateral through the brake exactly when none of its frames leaves the brake down that was up before
it, or down on a moving car, while main is on.
-/

namespace MazdaPort
namespace Safety

/-! ## One reception -/

/-- CRZ_AVAILABLE, which is on with cruise main. -/
def crzAvailable (msg : CANPacket) : Bool := msg.data.get 2 &&& 0x2 != 0

def pedalsBrake (msg : CANPacket) : Bool := msg.data.get 0 &&& 0x10 != 0

def engineMoving (msg : CANPacket) : Bool :=
  decide (10 < (((msg.data.get 2).toNat <<< 8) ||| (msg.data.get 3).toNat))

/-- What a frame says of the authority, the brake and the speed. -/
def saysAllowed (msg : CANPacket) (v : Vars) : Bool :=
  if msg.addr.toNat == mazdaCrzCtrl then crzAvailable msg else v.controlsAllowed

def saysBrake (msg : CANPacket) (v : Vars) : Bool :=
  if msg.addr.toNat == mazdaPedals then pedalsBrake msg else v.brakePressed

def saysMoving (msg : CANPacket) (v : Vars) : Bool :=
  if msg.addr.toNat == mazdaEngineData then engineMoving msg else v.vehicleMoving

theorem rxSpeed_eq (msg : CANPacket) (v : Vars) :
    rxSpeed msg v = { v with vehicleMoving := saysMoving msg v } := by
  unfold rxSpeed saysMoving
  split <;> rfl

theorem rxDriverTorque_eq (msg : CANPacket) (v : Vars) :
    ∃ driver, rxDriverTorque msg v = { v with torqueDriver := driver } := by
  unfold rxDriverTorque
  split
  · exact ⟨_, rfl⟩
  · exact ⟨v.torqueDriver, rfl⟩

theorem rxCrzCtrl_eq {b : Build} (hmads : b.mazdaMads = true) (hbrake : b.mazdaMadsBrake = true)
    {v : Vars} (hl : v.mazdaLongitudinal = false) (msg : CANPacket) :
    ∃ engaged main, rxCrzCtrl b msg v =
      { v with
        controlsAllowed := saysAllowed msg v
        cruiseEngagedPrev := engaged
        accMainOn := main } := by
  have hcond : (msg.addr.toNat == mazdaCrzCtrl && !v.mazdaLongitudinal) =
      (msg.addr.toNat == mazdaCrzCtrl) := by
    rw [hl, Bool.not_false, Bool.and_true]
  unfold rxCrzCtrl saysAllowed
  rw [hcond, hmads, hbrake]
  split
  · exact ⟨_, _, rfl⟩
  · exact ⟨v.cruiseEngagedPrev, v.accMainOn, rfl⟩

theorem rxGas_eq (msg : CANPacket) (v : Vars) :
    ∃ gas, rxGas msg v = { v with gasPressed := gas } := by
  unfold rxGas
  split
  · exact ⟨_, rfl⟩
  · exact ⟨v.gasPressed, rfl⟩

theorem rxPedals_short {v : Vars} (hl : v.mazdaLongitudinal = false) (msg : CANPacket) :
    rxPedals msg v = { v with brakePressed := saysBrake msg v } := by
  unfold rxPedals saysBrake
  split
  · simp only [hl, pedalsBrake, Bool.false_eq_true, if_false]
    rfl
  · rfl

/-- In this build the hook takes each of the three from its own frame. -/
theorem mazdaRxHook_madsBrake {b : Build} (hmads : b.mazdaMads = true)
    (hbrake : b.mazdaMadsBrake = true) {v : Vars} (hl : v.mazdaLongitudinal = false)
    {msg : CANPacket} (hbus : msg.bus.toNat = mazdaMain) :
    ∃ driver engaged main gas, mazdaRxHook b msg v =
      { v with
        controlsAllowed := saysAllowed msg v
        brakePressed := saysBrake msg v
        vehicleMoving := saysMoving msg v
        torqueDriver := driver
        cruiseEngagedPrev := engaged
        accMainOn := main
        gasPressed := gas } := by
  obtain ⟨driver, hdriver⟩ := rxDriverTorque_eq msg (rxSpeed msg v)
  let w : Vars := { v with vehicleMoving := saysMoving msg v, torqueDriver := driver }
  have hw : rxDriverTorque msg (rxSpeed msg v) = w := by rw [hdriver, rxSpeed_eq]
  obtain ⟨engaged, main, hctrl⟩ := rxCrzCtrl_eq hmads hbrake (v := w) hl msg
  let u : Vars :=
    { w with
      controlsAllowed := saysAllowed msg v
      cruiseEngagedPrev := engaged
      accMainOn := main }
  have hu : rxCrzCtrl b msg w = u := hctrl
  have hlu : u.mazdaLongitudinal = false := hl
  have hbtns : rxCrzBtns msg u = u := by simp [rxCrzBtns, hlu]
  obtain ⟨gas, hgas⟩ := rxGas_eq msg u
  refine ⟨driver, engaged, main, gas, ?_⟩
  rw [mazdaRxHook, if_pos (by simp [hbus]), hw, hu, hbtns, hgas]
  exact rxPedals_short (v := { u with gasPressed := gas }) hl msg

/-! ## Runs -/

/-- The layer took the frame, and it is the one that the authority is decided on. -/
def decides (fw : Firmware) (ts : UInt32) (msg : CANPacket) (s : SafetyState) : Bool :=
  (rxVerdict fw ts msg s).accepted && msg.addr.toNat == mazdaCrzCtrl

/-- Lateral is wanted after a frame: cruise main is on in it, or it does not say and lateral was
allowed. -/
def wanted (fw : Firmware) (ts : UInt32) (msg : CANPacket) (s : SafetyState) : Bool :=
  if decides fw ts msg s then crzAvailable msg else s.controlsAllowed

/-- What is asked of a step: a frame that wants lateral leaves it allowed. Ticks may withdraw it. -/
def KeepsLateral (fw : Firmware) (s : SafetyState) : Event → Prop
  | .rx ts msg => wanted fw ts msg s = true → (safetyRxHook fw ts msg s).2.controlsAllowed = true
  | .tx ts msg => s.controlsAllowed = true → (safetyTxHook fw ts msg s).2.controlsAllowed = true
  | _ => True

/-- The brake and the speed after a frame. -/
def brakeAfter (fw : Firmware) (ts : UInt32) (msg : CANPacket) (s : SafetyState) : Bool :=
  if (rxVerdict fw ts msg s).accepted then saysBrake msg s.toVars else s.brakePressed

def movingAfter (fw : Firmware) (ts : UInt32) (msg : CANPacket) (s : SafetyState) : Bool :=
  if (rxVerdict fw ts msg s).accepted then saysMoving msg s.toVars else s.vehicleMoving

/-- No frame that wants lateral leaves the brake newly down, or down on a moving car. -/
def SparesBrake (fw : Firmware) (s : SafetyState) : Event → Prop
  | .rx ts msg =>
    wanted fw ts msg s = true →
      ¬ (brakeAfter fw ts msg s = true ∧
        (s.brakePressed = false ∨ movingAfter fw ts msg s = true))
  | _ => True

/-- A stay without alpha longitudinal, with the inputs of the generic checks between two steps. -/
structure LateralStay (fw : Firmware) (s : SafetyState) : Prop where
  mode : MazdaMode fw false s
  quiet : QuietInputs s

theorem keepsLateral_step {fw : Firmware} (hmads : fw.build.mazdaMads = true)
    (hbrake : fw.build.mazdaMadsBrake = true) {s : SafetyState} (h : LateralStay fw s)
    (e : Event) : KeepsLateral fw s e ↔ SparesBrake fw s e := by
  cases e with
  | rx ts msg =>
    have hallowed : (safetyRxHook fw ts msg s).2.controlsAllowed =
        (wanted fw ts msg s && !(brakeAfter fw ts msg s &&
          (!s.brakePressed || movingAfter fw ts msg s))) := by
      have hvars : (safetyRxHook fw ts msg s).2.controlsAllowed =
          (rxVars fw ts msg s).controlsAllowed := rfl
      rw [hvars, rxVars_mazda h.mode, genericRxChecks_eq]
      unfold wanted decides brakeAfter movingAfter
      by_cases ha : (rxVerdict fw ts msg s).accepted = true
      · obtain ⟨driver, engaged, main, gas, hhook⟩ := mazdaRxHook_madsBrake hmads hbrake
          h.mode.longitudinal ((accepted_iff h.mode ts msg).1 ha).2.1
        simp [ha, hhook, genericAllowed, h.quiet.regen, h.quiet.steeringDisengage, h.quiet.brake,
          saysAllowed]
      · simp [ha, genericAllowed, h.quiet.regen, h.quiet.steeringDisengage, h.quiet.brake]
    simp only [KeepsLateral, SparesBrake, hallowed]
    cases wanted fw ts msg s <;> cases brakeAfter fw ts msg s <;> simp
  | tx ts msg =>
    obtain ⟨st, hst⟩ := step_tx_mazda fw h.mode.hooks ts msg
    have hsame : (step fw s (.tx ts msg)).controlsAllowed = s.controlsAllowed := by rw [hst]
    exact iff_of_true (fun hs => hsame.trans hs) trivial
  | tick ts hb => exact Iff.rfl
  | setMode mode param => exact Iff.rfl

theorem lateralStay_step {fw : Firmware} {s : SafetyState} {e : Event} (he : e.keepsMode = true)
    (h : LateralStay fw s) : LateralStay fw (step fw s e) :=
  ⟨step_mazdaMode h.mode he, quietInputs_step h.mode he h.quiet⟩

theorem lateralStay_start (fw : Firmware) {param : UInt16} (hparam : paramLongitudinal param = false)
    (s : SafetyState) : LateralStay fw (mazdaStart fw param s) :=
  ⟨hparam ▸ mazdaStart_mode fw param s, quietInputs_start fw param s⟩

/-- What ends lateral: a frame that says main is off, and a tick that withdraws the authority. -/
def EndsLateral (fw : Firmware) (s : SafetyState) : Event → Prop
  | .rx ts msg => decides fw ts msg s = true ∧ crzAvailable msg = false
  | .tick ts hb => (tickHandler ts hb s).controlsAllowed = false
  | _ => False

/-- Once allowed, lateral stays so through steps that keep it and do not end it. -/
theorem allowed_of_keepsLateral {fw : Firmware} {s : SafetyState} {es : List Event}
    (hes : ∀ e ∈ es, e.keepsMode = true)
    (h : Run.AllSteps (step fw) (fun s e => KeepsLateral fw s e ∧ ¬ EndsLateral fw s e) s es)
    (hon : s.controlsAllowed = true) : (run fw s es).controlsAllowed = true := by
  have hstep : ∀ s e, (e.keepsMode = true ∧ KeepsLateral fw s e ∧ ¬ EndsLateral fw s e) →
      s.controlsAllowed = true → (step fw s e).controlsAllowed = true := by
    rintro s e ⟨he, hkeeps, hends⟩ hon
    cases e with
    | rx ts msg =>
      refine hkeeps ?_
      unfold wanted
      split
      · next hdecides =>
        by_contra hoff
        exact hends ⟨hdecides, by simpa using hoff⟩
      · exact hon
    | tx ts msg => exact hkeeps hon
    | tick ts hb => exact (Bool.not_eq_false _).mp hends
    | setMode mode param => cases he
  exact Run.run_inv_of_steps hstep (h.and_mem hes) hon

theorem lateralStay_run {fw : Firmware} {param : UInt16} (hparam : paramLongitudinal param = false)
    (s : SafetyState) {es : List Event} (hes : ∀ e ∈ es, e.keepsMode = true) :
    LateralStay fw (run fw (mazdaStart fw param s) es) := by
  have hstep : ∀ s e, Event.keepsMode e = true → LateralStay fw s → LateralStay fw (step fw s e) :=
    fun _ _ he h => lateralStay_step he h
  exact Run.run_inv_of_mem hstep (lateralStay_start fw hparam s) hes

theorem keepsLateral_run {fw : Firmware} (hmads : fw.build.mazdaMads = true)
    (hbrake : fw.build.mazdaMadsBrake = true) {param : UInt16}
    (hparam : paramLongitudinal param = false) (s : SafetyState) {es : List Event}
    (hes : ∀ e ∈ es, e.keepsMode = true) :
    Run.AllSteps (step fw) (KeepsLateral fw) (mazdaStart fw param s) es ↔
      Run.AllSteps (step fw) (SparesBrake fw) (mazdaStart fw param s) es := by
  rw [Run.allSteps_iff_forall, Run.allSteps_iff_forall]
  refine forall_congr' fun pre => forall_congr' fun e => imp_congr_right fun hpre => ?_
  have hpre' : ∀ e' ∈ pre, e'.keepsMode = true :=
    fun e' he' => hes e' (hpre.subset (List.mem_append_left [e] he'))
  exact keepsLateral_step hmads hbrake (lateralStay_run hparam s hpre') e

/-- A run keeps lateral through the brake exactly when no frame of it that wants lateral leaves the
brake newly down, or down on a moving car. In such a run a frame with cruise main on allows lateral,
and it stays allowed until a frame says main is off or a tick withdraws it. -/
theorem keepsLateral_iff {fw : Firmware} (hmads : fw.build.mazdaMads = true)
    (hbrake : fw.build.mazdaMadsBrake = true) {param : UInt16}
    (hparam : paramLongitudinal param = false) (s : SafetyState) {es : List Event}
    (hes : ∀ e ∈ es, e.keepsMode = true) :
    (Run.AllSteps (step fw) (KeepsLateral fw) (mazdaStart fw param s) es ↔
        Run.AllSteps (step fw) (SparesBrake fw) (mazdaStart fw param s) es) ∧
      (Run.AllSteps (step fw) (SparesBrake fw) (mazdaStart fw param s) es →
        ∀ pre ts msg suf, es = pre ++ .rx ts msg :: suf →
          decides fw ts msg (run fw (mazdaStart fw param s) pre) = true →
          crzAvailable msg = true →
          Run.AllSteps (step fw) (fun r e => ¬ EndsLateral fw r e)
            (run fw (mazdaStart fw param s) (pre ++ [.rx ts msg])) suf →
          (run fw (mazdaStart fw param s) es).controlsAllowed = true) := by
  refine ⟨keepsLateral_run hmads hbrake hparam s hes, ?_⟩
  rintro hspares pre ts msg suf rfl hdecides hmain hends
  have hkeeps := (keepsLateral_run hmads hbrake hparam s hes).2 hspares
  rw [List.append_cons, Run.allSteps_append, Run.allSteps_snoc] at hkeeps
  obtain ⟨⟨_, hgrant⟩, hrest⟩ := hkeeps
  have hwanted : wanted fw ts msg (run fw (mazdaStart fw param s) pre) = true := by
    rw [wanted, if_pos hdecides]
    exact hmain
  have hon := hgrant hwanted
  rw [List.append_cons, run, Run.run_append]
  refine allowed_of_keepsLateral ?_ (Run.allSteps_and hrest hends) ?_
  · intro e he
    exact hes e (List.mem_append_right _ (List.mem_cons_of_mem _ he))
  · rw [Run.run_snoc]
    exact hon

/-- Cruise main on, on a car at rest. -/
def mainOn : CANPacket := .eightBytes 0 0x21c #v[0, 0, 0x2, 0, 0, 0, 0, 0]

def brakeOn : CANPacket := .eightBytes 0 0x165 #v[0x10, 0, 0, 0, 0, 0, 0x40, 0]

/-- The driver holds the brake on a car at rest, before main comes on and after. -/
def mainOnHeld : List Event := [.rx 0 brakeOn, .rx 0 mainOn, .rx 0 brakeOn]

theorem mainOn_kept :
    Run.AllSteps (step Firmware.f407) (KeepsLateral Firmware.f407)
        (mazdaStart Firmware.f407 0 {}) mainOnHeld ∧
      (run Firmware.f407 (mazdaStart Firmware.f407 0 {}) mainOnHeld).controlsAllowed = true := by
  obtain ⟨hiff, hallowed⟩ :=
    @keepsLateral_iff Firmware.f407 rfl rfl 0 rfl {} mainOnHeld (by decide)
  have hspares : Run.AllSteps (step Firmware.f407) (SparesBrake Firmware.f407)
      (mazdaStart Firmware.f407 0 {}) mainOnHeld := by
    simp only [mainOnHeld, Run.AllSteps, SparesBrake]
    decide
  refine ⟨hiff.2 hspares, ?_⟩
  refine hallowed hspares [.rx 0 brakeOn] 0 mainOn [.rx 0 brakeOn] rfl (by decide) (by decide) ?_
  simp only [Run.AllSteps, EndsLateral]
  decide

/-- The same frame while the driver brakes on a moving car. -/
def mainOnBraking : List Event :=
  [.rx 0 (.eightBytes 0 0x202 #v[0, 0, 0x10, 0, 0, 0, 0, 0]), .rx 0 brakeOn, .rx 0 mainOn]

/-- Lateral is not allowed. -/
theorem mainOnBraking_dropped :
    ¬ Run.AllSteps (step Firmware.f407) (KeepsLateral Firmware.f407)
      (mazdaStart Firmware.f407 0 {}) mainOnBraking := by
  rintro ⟨_, _, hkeeps, _⟩
  exact absurd (hkeeps (by decide)) (by decide)

end Safety
end MazdaPort
