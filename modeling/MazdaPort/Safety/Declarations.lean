import Mathlib.Data.Vector.Basic
import Mathlib.Tactic.Common

/-!
# MazdaPort.Safety.Declarations

The data of the panda's safety layer: `can_declarations.h` (packets), `safety_declarations.h`
(samples, whitelists, receive checks, limits) and the globals of `safety.h`.

`Vars` holds the globals a safety mode's hooks may read and write; `SafetyState` adds what only
`safety.h` itself touches (the mode, its tables, the relay latch). A hook is a function on `Vars`,
so no hook can change the tables it is checked against. Bytes are `UInt8`, the free-running timer
and the counters `UInt32`; C's `int` is `Int`, whose values stay far from the 32-bit limits.
-/

namespace MazdaPort
namespace Safety

/-! ## CAN packets -/

def dlcToLenTable : List Nat := [0, 1, 2, 3, 4, 5, 6, 7, 8, 12, 16, 20, 24, 32, 48, 64]

def dlcToLen (c : BitVec 4) : Nat := dlcToLenTable.getD c.toNat 0

theorem dlcToLenTable_le (n : Nat) : dlcToLenTable.getD n 0 ≤ 64 := by
  have htable : ∀ c : Fin 16, dlcToLenTable.getD c.val 0 ≤ 64 := by decide
  rcases Nat.lt_or_ge n 16 with hlt | hge
  · exact htable ⟨n, hlt⟩
  · rw [List.getD_eq_getElem?_getD, List.getElem?_eq_none hge]
    exact Nat.zero_le 64

/-- `CANPacket_t` of a build without CAN FD: `CANPACKET_DATA_SIZE_MAX` is 8. -/
structure CANPacket where
  fd : Bool
  bus : BitVec 3
  dataLenCode : BitVec 4
  rejected : Bool
  returned : Bool
  extended : Bool
  addr : BitVec 29
  checksum : UInt8
  data : Vector UInt8 8
  deriving DecidableEq, Repr

namespace CANPacket

def getLen (msg : CANPacket) : Nat := dlcToLen msg.dataLenCode

/-- `GET_BIT`: bit `b`, in the DBC's own numbering. -/
def getBit (msg : CANPacket) (b : Fin 64) : Bool :=
  ((msg.data.get ⟨b.val / 8, by omega⟩).toNat >>> (b.val % 8)) &&& 1 != 0

def eightBytes (bus : BitVec 3) (addr : BitVec 29) (data : Vector UInt8 8) : CANPacket :=
  { fd := false, bus := bus, dataLenCode := 8, rejected := false, returned := false,
    extended := false, addr := addr, checksum := 0, data := data }

end CANPacket

/-! ## Samples -/

/-- `struct sample_t`: the last `MAX_SAMPLE_VALS` values, newest first, with their range. -/
structure Sample where
  values : Vector Int 6
  min : Int
  max : Int
  deriving DecidableEq, Repr

def updateSample (s : Sample) (sampleNew : Int) : Sample :=
  let v := s.values
  let values : Vector Int 6 := #v[sampleNew, v[0], v[1], v[2], v[3], v[4]]
  { values := values
    min := values.toList.foldl (fun m x => if x < m then x else m) sampleNew
    max := values.toList.foldl (fun m x => if x > m then x else m) sampleNew }

def resetSample : Sample :=
  updateSample { values := #v[0, 0, 0, 0, 0, 0], min := 0, max := 0 } 0

/-! ## Whitelists and receive checks -/

structure CanMsg where
  addr : Nat
  bus : Nat
  len : Nat
  checkRelay : Bool
  disableStaticBlocking : Bool := false
  deriving DecidableEq, Repr

def CanMsg.admits (m : CanMsg) (msg : CANPacket) : Bool :=
  msg.addr.toNat == m.addr && msg.bus.toNat == m.bus && msg.getLen == m.len

structure CanMsgCheck where
  addr : Nat
  bus : Nat
  len : Nat
  frequency : Nat
  ignoreChecksum : Bool := false
  ignoreCounter : Bool := false
  maxCounter : UInt8 := 0
  ignoreQualityFlag : Bool := false
  deriving DecidableEq, Repr

/-- The `{ 0 }` that ends a receive check's list of alternatives. -/
def CanMsgCheck.zero : CanMsgCheck := { addr := 0, bus := 0, len := 0, frequency := 0 }

def CanMsgCheck.admits (m : CanMsgCheck) (msg : CANPacket) : Bool :=
  msg.addr.toNat == m.addr && msg.bus.toNat == m.bus && msg.getLen == m.len

structure RxStatus where
  msgSeen : Bool := false
  index : Nat := 0
  validChecksum : Bool := false
  wrongCounters : Int := 0
  validQualityFlag : Bool := false
  lastCounter : UInt8 := 0
  lastTimestamp : UInt32 := 0
  lagging : Bool := false
  deriving DecidableEq, Repr

/-- `RxCheck`: up to `MAX_ADDR_CHECK_MSGS` alternatives for one message, and its status. -/
structure RxCheck where
  msg : List CanMsgCheck
  status : RxStatus := {}
  deriving DecidableEq, Repr

def RxCheck.current (c : RxCheck) : CanMsgCheck := c.msg.getD c.status.index CanMsgCheck.zero

structure SafetyConfig where
  rxChecks : List RxCheck := []
  txMsgs : List CanMsg := []
  disableForwarding : Bool := false
  deriving DecidableEq, Repr

/-! ## Limits -/

inductive SteeringControlType where
  | torqueMotorLimited
  | torqueDriverLimited
  deriving DecidableEq, Repr

/-- `TorqueSteeringLimits`, for a mode that leaves `dynamic_max_torque` unset. -/
structure TorqueSteeringLimits where
  maxTorque : Int
  maxRateUp : Int
  maxRateDown : Int
  maxRtDelta : Int
  type : SteeringControlType
  driverTorqueAllowance : Int := 0
  driverTorqueMultiplier : Int := 0
  maxTorqueError : Int := 0
  minValidRequestFrames : Int := 0
  maxInvalidRequestFrames : Int := 0
  minValidRequestRtInterval : UInt32 := 0
  hasSteerReqTolerance : Bool := false

structure LongitudinalLimits where
  maxAccel : Int
  minAccel : Int
  inactiveAccel : Int

/-! ## Globals -/

structure SteerVars where
  desiredTorqueLast : Int := 0
  rtTorqueLast : Int := 0
  validSteerReqCount : Int := 0
  invalidSteerReqCount : Int := 0
  tsTorqueCheckLast : UInt32 := 0
  tsSteerReqMismatchLast : UInt32 := 0
  deriving DecidableEq, Repr

/-- The globals a safety mode's hooks read and write. `otherStatics` is the static memory of the
modes of other cars, which the Mazda hooks and `safety.h` never look at. -/
structure Vars where
  controlsAllowed : Bool := false
  gasPressed : Bool := false
  gasPressedPrev : Bool := false
  brakePressed : Bool := false
  brakePressedPrev : Bool := false
  regenBraking : Bool := false
  regenBrakingPrev : Bool := false
  steeringDisengage : Bool := false
  steeringDisengagePrev : Bool := false
  cruiseEngagedPrev : Bool := false
  vehicleMoving : Bool := false
  accMainOn : Bool := false
  steer : SteerVars := {}
  torqueMeas : Sample := resetSample
  torqueDriver : Sample := resetSample
  mazdaLongitudinal : Bool := false
  mazdaResPrev : Bool := false
  mazdaSetMPrev : Bool := false
  otherStatics : List Int := []
  deriving DecidableEq, Repr

/-- `if (c) { controls_allowed = false; }` -/
def Vars.revoke (c : Bool) (v : Vars) : Vars := if c then { v with controlsAllowed := false } else v

def Vars.grant (c : Bool) (v : Vars) : Vars := if c then { v with controlsAllowed := true } else v

theorem Vars.revoke_eq (c : Bool) (v : Vars) :
    v.revoke c = { v with controlsAllowed := v.controlsAllowed && !c } := by
  cases c <;> simp [Vars.revoke]

theorem Vars.grant_eq (c : Bool) (v : Vars) :
    v.grant c = { v with controlsAllowed := v.controlsAllowed || c } := by
  cases c <;> simp [Vars.grant]

/-- `safety_hooks`: the functions of one safety mode. A hook that may read the microsecond timer
takes its reading. -/
structure SafetyHooks where
  init : UInt16 → Vars → SafetyConfig × Vars
  rx : UInt32 → CANPacket → Vars → Vars
  tx : UInt32 → CANPacket → Vars → Bool × Vars
  fwd : Option (Nat → Nat → Vars → Bool) := none
  getChecksum : Option (CANPacket → UInt32) := none
  computeChecksum : Option (CANPacket → UInt32) := none
  getCounter : Option (CANPacket → UInt8) := none
  getQualityFlagValid : Option (CANPacket → Bool) := none

inductive HooksId where
  | nooutput
  | mazda
  | other (mode : UInt16)
  deriving DecidableEq, Repr

structure SafetyState extends Vars where
  relayMalfunction : Bool := false
  safetyRxChecksInvalid : Bool := false
  heartbeatEngagedMismatches : UInt32 := 0
  safetyModeCnt : UInt32 := 0
  currentSafetyMode : UInt16 := 0
  currentSafetyParam : UInt16 := 0
  currentHooks : HooksId := .nooutput
  currentSafetyConfig : SafetyConfig := {}
  deriving DecidableEq, Repr

end Safety
end MazdaPort
