import MazdaPort.Safety.Declarations

/-!
# MazdaPort.Safety.Limits

The actuation checks of `lateral.h` and `longitudinal.h`, with `max_limit_check` of `helpers.h`.
Every check returns `true` on a violation, as in the source.

* `driverLimitCheck_rate`: a torque that passes is within `MAX_RATE_UP` of the last one, measured
  from zero when the sign changes.
* `steerTorqueChecks_pass` and `steerTorqueChecks_last`: what a passing command satisfies, and what
  any call leaves in `desired_torque_last`. The steering envelope is derived from these two.
-/

namespace MazdaPort
namespace Safety

def maxLimitCheck (val maxVal minVal : Int) : Bool := val > maxVal || val < minVal

theorem maxLimitCheck_false {val maxVal minVal : Int} :
    maxLimitCheck val maxVal minVal = false ↔ val ≤ maxVal ∧ minVal ≤ val := by
  simp [maxLimitCheck]

/-! ## Lateral -/

def distToMeasCheck (val valLast : Int) (valMeas : Sample)
    (maxRateUp maxRateDown maxError : Int) : Bool :=
  let highestAllowedRl := max valLast 0 + maxRateUp
  let lowestAllowedRl := min valLast 0 - maxRateUp
  let highestAllowed :=
    min highestAllowedRl (max (valLast - maxRateDown) (max valMeas.max 0 + maxError))
  let lowestAllowed :=
    max lowestAllowedRl (min (valLast + maxRateDown) (min valMeas.min 0 - maxError))
  maxLimitCheck val highestAllowed lowestAllowed

def driverLimitCheck (val valLast : Int) (valDriver : Sample)
    (maxVal maxRateUp maxRateDown maxAllowance driverFactor : Int) : Bool :=
  let highestAllowedRl := max valLast 0 + maxRateUp
  let lowestAllowedRl := min valLast 0 - maxRateUp
  let driverMaxLimit := maxVal + (maxAllowance + valDriver.max) * driverFactor
  let driverMinLimit := -maxVal + (-maxAllowance + valDriver.min) * driverFactor
  let highestAllowed := min highestAllowedRl (max (valLast - maxRateDown) (max driverMaxLimit 0))
  let lowestAllowed := max lowestAllowedRl (min (valLast + maxRateDown) (min driverMinLimit 0))
  maxLimitCheck val highestAllowed lowestAllowed

def rtTorqueRateLimitCheck (val valLast maxRtDelta : Int) : Bool :=
  maxLimitCheck val (max valLast 0 + maxRtDelta) (min valLast 0 - maxRtDelta)

theorem distToMeasCheck_rate {val valLast up down err : Int} {m : Sample}
    (h : distToMeasCheck val valLast m up down err = false) :
    val ≤ max valLast 0 + up ∧ min valLast 0 - up ≤ val := by
  simp only [distToMeasCheck, maxLimitCheck_false] at h
  omega

theorem driverLimitCheck_rate {val valLast maxVal up down allowance : Int} {factor : Int}
    {d : Sample} (h : driverLimitCheck val valLast d maxVal up down allowance factor = false) :
    val ≤ max valLast 0 + up ∧ min valLast 0 - up ≤ val := by
  simp only [driverLimitCheck, maxLimitCheck_false] at h
  omega

def maxRtInterval : UInt32 := 250000

/-- The limits tested while `controls_allowed`, in the order of the source. The second component is
the state after `desired_torque_last` and the real-time window have moved on: they move whether or
not the command passes. -/
def steerTorqueLimitChecks (ts : UInt32) (desiredTorque : Int) (limits : TorqueSteeringLimits)
    (torqueMeas torqueDriver : Sample) (st : SteerVars) : Bool × SteerVars :=
  let globalViolation := maxLimitCheck desiredTorque limits.maxTorque (-limits.maxTorque)
  let rateViolation :=
    match limits.type with
    | .torqueDriverLimited =>
      driverLimitCheck desiredTorque st.desiredTorqueLast torqueDriver limits.maxTorque
        limits.maxRateUp limits.maxRateDown limits.driverTorqueAllowance
        limits.driverTorqueMultiplier
    | .torqueMotorLimited =>
      distToMeasCheck desiredTorque st.desiredTorqueLast torqueMeas limits.maxRateUp
        limits.maxRateDown limits.maxTorqueError
  let rtViolation := rtTorqueRateLimitCheck desiredTorque st.rtTorqueLast limits.maxRtDelta
  let st := { st with desiredTorqueLast := desiredTorque }
  -- `get_ts_elapsed` is the 32-bit difference, so a wrapped timer needs no case of its own
  let st :=
    if ts - st.tsTorqueCheckLast > maxRtInterval then
      { st with rtTorqueLast := desiredTorque, tsTorqueCheckLast := ts }
    else st
  (globalViolation || rateViolation || rtViolation, st)

/-- The request-bit part of `steer_torque_cmd_checks`: a mode may cut its steer request bit for a
few frames at a bounded rate. -/
def steerReqChecks (ts : UInt32) (desiredTorque steerReq : Int) (limits : TorqueSteeringLimits)
    (st : SteerVars) : Bool × SteerVars :=
  let mismatch := steerReq == 0 && desiredTorque != 0
  if !limits.hasSteerReqTolerance then (mismatch, st)
  else if mismatch then
    let violation :=
      if st.invalidSteerReqCount == 0 then
        st.validSteerReqCount < limits.minValidRequestFrames ||
          ts - st.tsSteerReqMismatchLast < limits.minValidRequestRtInterval
      else st.invalidSteerReqCount ≥ limits.maxInvalidRequestFrames
    (violation,
      { st with
        validSteerReqCount := 0
        tsSteerReqMismatchLast := ts
        invalidSteerReqCount := min (st.invalidSteerReqCount + 1) limits.maxInvalidRequestFrames })
  else
    (false,
      { st with
        validSteerReqCount := min (st.validSteerReqCount + 1) limits.minValidRequestFrames
        invalidSteerReqCount := 0 })

def SteerVars.reset (ts : UInt32) : SteerVars :=
  { desiredTorqueLast := 0
    rtTorqueLast := 0
    validSteerReqCount := 0
    invalidSteerReqCount := 0
    tsTorqueCheckLast := ts
    tsSteerReqMismatchLast := ts }

/-- `steer_torque_cmd_checks` on the steering variables, given the other globals it reads. -/
def steerTorqueChecks (ts : UInt32) (desiredTorque steerReq : Int) (limits : TorqueSteeringLimits)
    (controlsAllowed : Bool) (torqueMeas torqueDriver : Sample) (st : SteerVars) :
    Bool × SteerVars :=
  let lim :=
    if controlsAllowed then
      steerTorqueLimitChecks ts desiredTorque limits torqueMeas torqueDriver st
    else (false, st)
  let notAllowed := !controlsAllowed && desiredTorque != 0
  let req := steerReqChecks ts desiredTorque steerReq limits lim.2
  let violation := lim.1 || notAllowed || req.1
  (violation, if violation || !controlsAllowed then SteerVars.reset ts else req.2)

def steerTorqueCmdChecks (ts : UInt32) (desiredTorque steerReq : Int)
    (limits : TorqueSteeringLimits) (v : Vars) : Bool × Vars :=
  let r := steerTorqueChecks ts desiredTorque steerReq limits v.controlsAllowed v.torqueMeas
    v.torqueDriver v.steer
  (r.1, { v with steer := r.2 })

theorem steerTorqueLimitChecks_last (ts : UInt32) (t : Int) (limits : TorqueSteeringLimits)
    (m d : Sample) (st : SteerVars) :
    (steerTorqueLimitChecks ts t limits m d st).2.desiredTorqueLast = t := by
  simp only [steerTorqueLimitChecks]
  split <;> rfl

theorem steerReqChecks_last (ts : UInt32) (t q : Int) (limits : TorqueSteeringLimits)
    (st : SteerVars) :
    (steerReqChecks ts t q limits st).2.desiredTorqueLast = st.desiredTorqueLast := by
  unfold steerReqChecks
  split
  · rfl
  · dsimp only
    split <;> rfl

/-- A command that passes while controls are allowed becomes `desired_torque_last`; any other call
leaves zero there. -/
theorem steerTorqueChecks_last (ts : UInt32) (t q : Int) (limits : TorqueSteeringLimits)
    (allowed : Bool) (m d : Sample) (st : SteerVars) :
    (steerTorqueChecks ts t q limits allowed m d st).2.desiredTorqueLast =
      if (steerTorqueChecks ts t q limits allowed m d st).1 || !allowed then 0 else t := by
  cases allowed with
  | false => simp [steerTorqueChecks, SteerVars.reset]
  | true =>
    simp only [steerTorqueChecks, if_true]
    split
    · rfl
    · rw [steerReqChecks_last, steerTorqueLimitChecks_last]

theorem steerTorqueChecks_pass {ts : UInt32} {t q : Int} {limits : TorqueSteeringLimits}
    {m d : Sample} {st : SteerVars}
    (h : (steerTorqueChecks ts t q limits true m d st).1 = false) :
    (t ≤ limits.maxTorque ∧ -limits.maxTorque ≤ t) ∧
      t ≤ max st.desiredTorqueLast 0 + limits.maxRateUp ∧
      min st.desiredTorqueLast 0 - limits.maxRateUp ≤ t := by
  simp only [steerTorqueChecks, if_true, steerTorqueLimitChecks, Bool.or_eq_false_iff,
    maxLimitCheck_false] at h
  obtain ⟨⟨⟨⟨hmax, hrate⟩, _⟩, _⟩, _⟩ := h
  refine ⟨hmax, ?_⟩
  cases ht : limits.type with
  | torqueMotorLimited => rw [ht] at hrate; exact distToMeasCheck_rate hrate
  | torqueDriverLimited => rw [ht] at hrate; exact driverLimitCheck_rate hrate

theorem steerTorqueChecks_notAllowed {ts : UInt32} {t q : Int} {limits : TorqueSteeringLimits}
    {m d : Sample} {st : SteerVars}
    (h : (steerTorqueChecks ts t q limits false m d st).1 = false) : t = 0 := by
  simp only [steerTorqueChecks, Bool.or_eq_false_iff] at h
  simpa using h.1.2

/-! ## Longitudinal -/

def getLongitudinalAllowed (v : Vars) : Bool := v.controlsAllowed && !v.gasPressedPrev

def longitudinalAccelChecks (desiredAccel : Int) (limits : LongitudinalLimits) (v : Vars) : Bool :=
  let accelValid :=
    getLongitudinalAllowed v && !maxLimitCheck desiredAccel limits.maxAccel limits.minAccel
  let accelInactive := desiredAccel == limits.inactiveAccel
  !(accelValid || accelInactive)

theorem longitudinalAccelChecks_false {a : Int} {limits : LongitudinalLimits} {v : Vars} :
    longitudinalAccelChecks a limits v = false ↔
      (getLongitudinalAllowed v = true ∧ a ≤ limits.maxAccel ∧ limits.minAccel ≤ a) ∨
        a = limits.inactiveAccel := by
  simp only [longitudinalAccelChecks, Bool.not_eq_false', Bool.or_eq_true, Bool.and_eq_true,
    Bool.not_eq_true', maxLimitCheck_false, beq_iff_eq]

end Safety
end MazdaPort
