import MazdaPort.Safety.Limits

/-!
# MazdaPort.Safety.Mazda

`modes/mazda.h`: the receive, transmit and init hooks of `SAFETY_MAZDA`, with the two transmit
tables and the two lists of receive checks.

The file is compiled under three flags. `PANDA_NUCLEO` selects the tables of this port's boards,
`MAZDA_MADS` gates engagement on cruise MAIN, and `MAZDA_MADS_BRAKE`, tested inside the former,
drops the brake term from that gate. They are the fields of `Build`, so one model covers every
variant. The receive hook is the sequence of its `if` blocks, each a definition of its own.
-/

namespace MazdaPort
namespace Safety

structure Build where
  pandaNucleo : Bool
  mazdaMads : Bool
  mazdaMadsBrake : Bool
  deriving DecidableEq, Repr

def Build.f407 : Build := { pandaNucleo := true, mazdaMads := true, mazdaMadsBrake := true }

/-! ## Addresses -/

def mazdaLkas : Nat := 0x243
def mazdaLkasHud : Nat := 0x440
def mazdaCrzInfo : Nat := 0x21b
def mazdaCrzCtrl : Nat := 0x21c
def mazdaRadarDistance : Nat := 0x361
def mazdaRadarTurn : Nat := 0x362
def mazdaRadar363 : Nat := 0x363
def mazdaRadar364 : Nat := 0x364
def mazdaRadar365 : Nat := 0x365
def mazdaRadar366 : Nat := 0x366
def mazdaRadar499 : Nat := 0x499
def mazdaCrzBtns : Nat := 0x09d
def mazdaRadarUds : Nat := 0x764
def mazdaSteerTorque : Nat := 0x240
def mazdaEngineData : Nat := 0x202
def mazdaPedals : Nat := 0x165

def mazdaMain : Nat := 0

def mazdaParamLongitudinal : UInt16 := 1

def mazdaAccelIdleSentinel : Int := 4094

/-! ## Receive hook -/

def pcmCruiseCheck (cruiseEngaged : Bool) (v : Vars) : Vars :=
  let v := v.revoke !cruiseEngaged
  let v := v.grant (cruiseEngaged && !v.cruiseEngagedPrev)
  { v with cruiseEngagedPrev := cruiseEngaged }

def rxSpeed (msg : CANPacket) (v : Vars) : Vars :=
  if msg.addr.toNat == mazdaEngineData then
    let speed := (msg.data[2].toNat <<< 8) ||| msg.data[3].toNat
    { v with vehicleMoving := speed > 10 }
  else v

def driverSample (b : UInt8) : Int := (b.toNat : Int) - 127

def rxDriverTorque (msg : CANPacket) (v : Vars) : Vars :=
  if msg.addr.toNat == mazdaSteerTorque then
    { v with torqueDriver := updateSample v.torqueDriver (driverSample msg.data[0]) }
  else v

/-- CRZ_CTRL: the engagement of a build without alpha longitudinal. -/
def rxCrzCtrl (b : Build) (msg : CANPacket) (v : Vars) : Vars :=
  if msg.addr.toNat == mazdaCrzCtrl && !v.mazdaLongitudinal then
    let v :=
      if b.mazdaMads then
        let cruiseEngaged := msg.data[2] &&& 0x2 != 0
        let v :=
          if b.mazdaMadsBrake then { v with controlsAllowed := cruiseEngaged }
          else { v with controlsAllowed := cruiseEngaged && !v.brakePressed }
        { v with cruiseEngagedPrev := cruiseEngaged }
      else
        let cruiseEngaged := msg.data[0] &&& 0x8 != 0
        pcmCruiseCheck cruiseEngaged v
    { v with accMainOn := msg.getBit 17 }
  else v

/-- What a CRZ_BTNS frame can do: RESUME on press and SET on release arm, CAN_OFF cancels. -/
def buttonArms (msg : CANPacket) (v : Vars) : Bool :=
  (msg.getBit 2 && !v.mazdaResPrev) || (!msg.getBit 5 && v.mazdaSetMPrev)

def buttonCancels (msg : CANPacket) : Bool := msg.getBit 0

def rxCrzBtns (msg : CANPacket) (v : Vars) : Vars :=
  if msg.addr.toNat == mazdaCrzBtns && v.mazdaLongitudinal then
    let cancel := buttonCancels msg
    let v' := v.grant (buttonArms msg v)
    -- tested after the arm, so a cancel in the same frame wins
    let v' := v'.revoke cancel
    { v' with mazdaResPrev := msg.getBit 2, mazdaSetMPrev := msg.getBit 5 }
  else v

def rxGas (msg : CANPacket) (v : Vars) : Vars :=
  if msg.addr.toNat == mazdaEngineData then
    { v with gasPressed := msg.data[4] != 0 || msg.data[5] &&& 0xF0 != 0 }
  else v

/-- PEDALS: MRCC main is on when ACC_OFF or ACC_ACTIVE is set. -/
def pedalsAccArmed (msg : CANPacket) : Bool := msg.getBit 2 || msg.getBit 3

def rxPedals (msg : CANPacket) (v : Vars) : Vars :=
  if msg.addr.toNat == mazdaPedals then
    let brake := msg.data[0] &&& 0x10 != 0
    let v :=
      if v.mazdaLongitudinal then
        let cruiseEngaged := msg.getBit 3
        let accArmed := pedalsAccArmed msg
        let v := { v with accMainOn := accArmed }
        let v := v.revoke !accArmed
        { v with cruiseEngagedPrev := cruiseEngaged }
      else v
    { v with brakePressed := brake }
  else v

def mazdaRxHook (b : Build) (msg : CANPacket) (v : Vars) : Vars :=
  if msg.bus.toNat == mazdaMain then
    rxPedals msg (rxGas msg (rxCrzBtns msg (rxCrzCtrl b msg (rxDriverTorque msg (rxSpeed msg v)))))
  else v

/-- What no part of the receive hook writes. -/
structure RxFrame (v v' : Vars) : Prop where
  steer : v'.steer = v.steer
  mazdaLongitudinal : v'.mazdaLongitudinal = v.mazdaLongitudinal
  regenBraking : v'.regenBraking = v.regenBraking
  steeringDisengage : v'.steeringDisengage = v.steeringDisengage
  brakePressedPrev : v'.brakePressedPrev = v.brakePressedPrev

theorem RxFrame.trans {v v' v'' : Vars} (h : RxFrame v v') (h' : RxFrame v' v'') :
    RxFrame v v'' :=
  ⟨h'.steer.trans h.steer, h'.mazdaLongitudinal.trans h.mazdaLongitudinal,
    h'.regenBraking.trans h.regenBraking, h'.steeringDisengage.trans h.steeringDisengage,
    h'.brakePressedPrev.trans h.brakePressedPrev⟩

theorem rxSpeed_frame (msg : CANPacket) (v : Vars) : RxFrame v (rxSpeed msg v) := by
  unfold rxSpeed
  split <;> exact ⟨rfl, rfl, rfl, rfl, rfl⟩

theorem rxDriverTorque_frame (msg : CANPacket) (v : Vars) :
    RxFrame v (rxDriverTorque msg v) := by
  unfold rxDriverTorque
  split <;> exact ⟨rfl, rfl, rfl, rfl, rfl⟩

theorem pcmCruiseCheck_frame (c : Bool) (v : Vars) : RxFrame v (pcmCruiseCheck c v) := by
  simp only [pcmCruiseCheck, Vars.revoke_eq, Vars.grant_eq]
  exact ⟨rfl, rfl, rfl, rfl, rfl⟩

theorem rxCrzCtrl_frame (b : Build) (msg : CANPacket) (v : Vars) :
    RxFrame v (rxCrzCtrl b msg v) := by
  unfold rxCrzCtrl
  split
  · cases b.mazdaMads with
    | true => cases b.mazdaMadsBrake <;> exact ⟨rfl, rfl, rfl, rfl, rfl⟩
    | false =>
      have h := pcmCruiseCheck_frame (msg.data[0] &&& 0x8 != 0) v
      exact ⟨h.steer, h.mazdaLongitudinal, h.regenBraking, h.steeringDisengage,
        h.brakePressedPrev⟩
  · exact ⟨rfl, rfl, rfl, rfl, rfl⟩

theorem rxCrzBtns_frame (msg : CANPacket) (v : Vars) : RxFrame v (rxCrzBtns msg v) := by
  simp only [rxCrzBtns, Vars.revoke_eq, Vars.grant_eq]
  split
  · exact ⟨rfl, rfl, rfl, rfl, rfl⟩
  · exact ⟨rfl, rfl, rfl, rfl, rfl⟩

theorem rxGas_frame (msg : CANPacket) (v : Vars) : RxFrame v (rxGas msg v) := by
  unfold rxGas
  split <;> exact ⟨rfl, rfl, rfl, rfl, rfl⟩

theorem rxPedals_frame (msg : CANPacket) (v : Vars) : RxFrame v (rxPedals msg v) := by
  simp only [rxPedals, Vars.revoke_eq]
  split
  · split <;> exact ⟨rfl, rfl, rfl, rfl, rfl⟩
  · exact ⟨rfl, rfl, rfl, rfl, rfl⟩

theorem mazdaRxHook_frame (b : Build) (msg : CANPacket) (v : Vars) :
    RxFrame v (mazdaRxHook b msg v) := by
  unfold mazdaRxHook
  split
  · have h1 := (rxSpeed_frame msg v).trans (rxDriverTorque_frame msg _)
    have h2 := (h1.trans (rxCrzCtrl_frame b msg _)).trans (rxCrzBtns_frame msg _)
    exact (h2.trans (rxGas_frame msg _)).trans (rxPedals_frame msg _)
  · exact ⟨rfl, rfl, rfl, rfl, rfl⟩

/-- Under alpha longitudinal only CRZ_BTNS and PEDALS touch the authority. Every other frame
brings at most a speed, a gas pedal or a driver torque. -/
theorem mazdaRxHook_long {v : Vars} (hl : v.mazdaLongitudinal = true) (b : Build)
    (msg : CANPacket) (hb : msg.bus.toNat = mazdaMain) :
    (msg.addr.toNat = mazdaCrzBtns ∧ mazdaRxHook b msg v = rxCrzBtns msg v) ∨
      (msg.addr.toNat = mazdaPedals ∧ mazdaRxHook b msg v = rxPedals msg v) ∨
      (msg.addr.toNat ≠ mazdaCrzBtns ∧ msg.addr.toNat ≠ mazdaPedals ∧
        ∃ moving gas driver, mazdaRxHook b msg v =
          { v with vehicleMoving := moving, gasPressed := gas, torqueDriver := driver }) := by
  unfold mazdaRxHook
  rw [if_pos (by simp [hb])]
  by_cases hbtns : msg.addr.toNat = mazdaCrzBtns
  · left
    refine ⟨hbtns, ?_⟩
    simp [rxPedals, rxGas, rxCrzCtrl, rxDriverTorque, rxSpeed, hbtns, mazdaCrzBtns, mazdaPedals,
      mazdaEngineData, mazdaCrzCtrl, mazdaSteerTorque]
  · by_cases hped : msg.addr.toNat = mazdaPedals
    · right; left
      refine ⟨hped, ?_⟩
      simp [rxCrzBtns, rxGas, rxCrzCtrl, rxDriverTorque, rxSpeed, hped, mazdaCrzBtns,
        mazdaPedals, mazdaEngineData, mazdaCrzCtrl, mazdaSteerTorque]
    · right; right
      refine ⟨hbtns, hped, ?_⟩
      by_cases heng : msg.addr.toNat = mazdaEngineData
      · simp only [rxPedals, rxGas, rxCrzBtns, rxCrzCtrl, rxDriverTorque, rxSpeed, heng,
          mazdaCrzBtns, mazdaPedals, mazdaEngineData, mazdaCrzCtrl, mazdaSteerTorque]
        exact ⟨_, _, v.torqueDriver, rfl⟩
      · by_cases hst : msg.addr.toNat = mazdaSteerTorque
        · simp only [rxPedals, rxGas, rxCrzBtns, rxCrzCtrl, rxDriverTorque, rxSpeed, hst,
            mazdaCrzBtns, mazdaPedals, mazdaEngineData, mazdaCrzCtrl, mazdaSteerTorque]
          exact ⟨v.vehicleMoving, v.gasPressed, _, rfl⟩
        · have hnone : rxPedals msg (rxGas msg (rxCrzBtns msg (rxCrzCtrl b msg
              (rxDriverTorque msg (rxSpeed msg v))))) = v := by
            simp [rxPedals, rxGas, rxCrzBtns, rxCrzCtrl, rxDriverTorque, rxSpeed, hbtns, hped,
              heng, hst, hl]
          exact ⟨v.vehicleMoving, v.gasPressed, v.torqueDriver, hnone⟩

/-! ## Transmit hook -/

def mazdaSteeringLimits : TorqueSteeringLimits :=
  { maxTorque := 2047
    maxRateUp := 80
    maxRateDown := 50
    maxRtDelta := 2047
    type := .torqueDriverLimited
    driverTorqueMultiplier := 1
    driverTorqueAllowance := 15 }

def mazdaLongLimits : LongitudinalLimits :=
  { maxAccel := 2000, minAccel := -2000, inactiveAccel := mazdaAccelIdleSentinel }

def lkasTorque (msg : CANPacket) : Int :=
  ((((msg.data[0] &&& 0x0F).toNat <<< 8) ||| msg.data[1].toNat : Nat) : Int) - 2048

/-- ACCEL_CMD of a 0x21b frame: 13 bits over bytes 2 to 4. -/
def crzInfoAccel (msg : CANPacket) : Int :=
  ((((msg.data[2] &&& 0x3).toNat <<< 11) ||| (msg.data[3].toNat <<< 3) |||
    (msg.data[4].toNat >>> 5) : Nat) : Int) - 4096

def crzActive (msg : CANPacket) : Bool := msg.getBit 3

/-- The two kinds of request the radar's diagnostic address may be sent: tester-present, and
session control for the default or the programming session. -/
def radarUdsAllowed (msg : CANPacket) : Bool :=
  let testerPresent := msg.data[0] == 0x02 && msg.data[1] == 0x3E && msg.data[2] == 0x80
  let sessionControl :=
    msg.data[0] == 0x02 && msg.data[1] == 0x10 && (msg.data[2] == 0x01 || msg.data[2] == 0x02)
  testerPresent || sessionControl

def mazdaTxRefused (msg : CANPacket) (v : Vars) : Bool :=
  (v.mazdaLongitudinal && msg.addr.toNat == mazdaCrzInfo &&
      longitudinalAccelChecks (crzInfoAccel msg) mazdaLongLimits v) ||
    (v.mazdaLongitudinal && msg.addr.toNat == mazdaCrzCtrl && !v.controlsAllowed &&
      crzActive msg) ||
    (v.mazdaLongitudinal && msg.addr.toNat == mazdaRadarUds && !radarUdsAllowed msg) ||
    (msg.addr.toNat == mazdaCrzBtns && !v.controlsAllowed && !(msg.data[0] == 0x1))

/-- `mazda_tx_hook`. All content checks are made on the main bus only. -/
def mazdaTxHook (ts : UInt32) (msg : CANPacket) (v : Vars) : Bool × Vars :=
  if msg.bus.toNat == mazdaMain then
    if msg.addr.toNat == mazdaLkas then
      let r := steerTorqueCmdChecks ts (lkasTorque msg) (-1) mazdaSteeringLimits v
      (!r.1 && !mazdaTxRefused msg r.2, r.2)
    else (!mazdaTxRefused msg v, v)
  else (true, v)

theorem mazdaTxHook_vars (ts : UInt32) (msg : CANPacket) (v : Vars) :
    ∃ st, (mazdaTxHook ts msg v).2 = { v with steer := st } := by
  unfold mazdaTxHook
  split
  · split
    · exact ⟨_, rfl⟩
    · exact ⟨v.steer, rfl⟩
  · exact ⟨v.steer, rfl⟩

/-! ## Tables and init -/

def mazdaTxMsgs (b : Build) : List CanMsg :=
  [{ addr := mazdaLkas, bus := 0, len := 8, checkRelay := true },
   { addr := mazdaCrzBtns, bus := 0, len := 8, checkRelay := false },
   { addr := mazdaLkasHud, bus := 0, len := 8, checkRelay := true,
     disableStaticBlocking := b.pandaNucleo }]

/-- The radar's seven other frames, which the host replays while the radar is silent. -/
def radarShadowMsgs (bus : Nat) : List CanMsg :=
  [mazdaRadarDistance, mazdaRadarTurn, mazdaRadar363, mazdaRadar364, mazdaRadar365, mazdaRadar366,
    mazdaRadar499].map fun addr => { addr := addr, bus := bus, len := 8, checkRelay := false }

def mazdaLongTxMsgs (b : Build) : List CanMsg :=
  mazdaTxMsgs b ++
    [{ addr := mazdaCrzInfo, bus := 0, len := 8, checkRelay := false },
     { addr := mazdaCrzCtrl, bus := 0, len := 8, checkRelay := false },
     { addr := mazdaRadarUds, bus := 0, len := 8, checkRelay := false }] ++
    if b.pandaNucleo then
      radarShadowMsgs 0 ++
        [{ addr := mazdaCrzInfo, bus := 2, len := 8, checkRelay := false },
         { addr := mazdaCrzCtrl, bus := 2, len := 8, checkRelay := false }] ++
        radarShadowMsgs 2
    else []

/-- The message of one entry of `mazda_rx_checks`: an 8-byte frame on bus 0 whose checksum, counter
and quality flag are not tested. -/
def mazdaRxMsg (addr frequency : Nat) : CanMsgCheck :=
  { addr := addr, bus := 0, len := 8, frequency := frequency, ignoreChecksum := true,
    ignoreCounter := true, ignoreQualityFlag := true }

def mazdaRxCheck (addr frequency : Nat) : RxCheck :=
  { msg := [mazdaRxMsg addr frequency, CanMsgCheck.zero, CanMsgCheck.zero] }

def mazdaLongRxChecks : List RxCheck :=
  [mazdaRxCheck mazdaCrzBtns 10, mazdaRxCheck mazdaSteerTorque 83, mazdaRxCheck mazdaEngineData 100,
   mazdaRxCheck mazdaPedals 50]

def mazdaRxChecks : List RxCheck := mazdaRxCheck mazdaCrzCtrl 50 :: mazdaLongRxChecks

def paramLongitudinal (param : UInt16) : Bool :=
  param &&& mazdaParamLongitudinal == mazdaParamLongitudinal

def mazdaInit (b : Build) (param : UInt16) (v : Vars) : SafetyConfig × Vars :=
  let long := paramLongitudinal param
  (if long then { rxChecks := mazdaLongRxChecks, txMsgs := mazdaLongTxMsgs b }
    else { rxChecks := mazdaRxChecks, txMsgs := mazdaTxMsgs b },
    { v with
      mazdaLongitudinal := long
      accMainOn := false
      mazdaResPrev := false
      mazdaSetMPrev := false })

def mazdaHooks (b : Build) : SafetyHooks :=
  { init := mazdaInit b, rx := fun _ => mazdaRxHook b, tx := mazdaTxHook }

end Safety
end MazdaPort
