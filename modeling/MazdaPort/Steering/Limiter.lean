import MazdaPort.Safety.Envelope

/-!
# MazdaPort.Steering.Limiter

The host's rate limiter, `apply_driver_steer_torque_limits` of `car/lateral.py` with the
`CarControllerParams` of `car/mazda/values.py`, against the firmware's steering checks.

* `limiter_limited`: what the limiter's output satisfies, whatever it was asked.
* `limited_accepted`: from the same last torque, the firmware accepts it, although the two sides
  sample the driver's torque independently.
-/

namespace MazdaPort
namespace Steering

open Safety

/-! ## Limiter -/

structure CarControllerParams where
  steerMax : Int
  steerDeltaUp : Int
  steerDeltaDown : Int
  steerDriverAllowance : Int
  steerDriverMultiplier : Int
  steerDriverFactor : Int

def mazdaParams : CarControllerParams :=
  { steerMax := 800
    steerDeltaUp := 80
    steerDeltaDown := 25
    steerDriverAllowance := 15
    steerDriverMultiplier := 1
    steerDriverFactor := 1 }

/-- `np.clip`: the upper bound wins when the two cross. -/
def npClip (x lo hi : Int) : Int := min (max x lo) hi

def applyDriverSteerTorqueLimits (applyTorque applyTorqueLast driverTorque : Int)
    (limits : CarControllerParams) : Int :=
  let driver := driverTorque * limits.steerDriverFactor
  let driverMaxTorque :=
    limits.steerMax + (limits.steerDriverAllowance + driver) * limits.steerDriverMultiplier
  let driverMinTorque :=
    -limits.steerMax + (-limits.steerDriverAllowance + driver) * limits.steerDriverMultiplier
  let maxSteerAllowed := max (min limits.steerMax driverMaxTorque) 0
  let minSteerAllowed := min (max (-limits.steerMax) driverMinTorque) 0
  let applyTorque := npClip applyTorque minSteerAllowed maxSteerAllowed
  if applyTorqueLast > 0 then
    npClip applyTorque (max (applyTorqueLast - limits.steerDeltaDown) (-limits.steerDeltaUp))
      (applyTorqueLast + limits.steerDeltaUp)
  else
    npClip applyTorque (applyTorqueLast - limits.steerDeltaUp)
      (min (applyTorqueLast + limits.steerDeltaDown) limits.steerDeltaUp)

/-- What the limiter guarantees of a torque, given the last one: at most `STEER_DELTA_UP` away from
it or from zero, and above 800 only as far as `STEER_DELTA_DOWN` lets a larger torque come down. -/
structure Limited (last t : Int) : Prop where
  up : t ≤ max last 0 + 80
  down : min last 0 - 80 ≤ t
  high : t ≤ max 800 (last - 25)
  low : min (-800) (last + 25) ≤ t

/-- Whatever the driver does, the torque clipped to his limits is within `STEER_MAX`. -/
theorem steerAllowed_bounds (want low high : Int) :
    -800 ≤ npClip want (min (max (-800) low) 0) (max (min 800 high) 0) ∧
      npClip want (min (max (-800) low) 0) (max (min 800 high) 0) ≤ 800 := by
  have hlow : -800 ≤ min (max (-800) low) 0 := le_min (le_max_left _ _) (by decide)
  have hhigh : max (min 800 high) 0 ≤ 800 := max_le (min_le_left _ _) (by decide)
  have hcross : min (max (-800) low) 0 ≤ max (min 800 high) 0 :=
    (min_le_right _ _).trans (le_max_right _ _)
  exact ⟨hlow.trans (le_min (le_max_right _ _) hcross), (min_le_right _ _).trans hhigh⟩

theorem limiter_limited (want last driver : Int) :
    Limited last (applyDriverSteerTorqueLimits want last driver mazdaParams) := by
  simp only [applyDriverSteerTorqueLimits, mazdaParams]
  generalize hlow : -800 + (-15 + driver * 1) * 1 = low
  generalize hhigh : 800 + (15 + driver * 1) * 1 = high
  obtain ⟨hmin, hmax⟩ := steerAllowed_bounds want low high
  generalize npClip want (min (max (-800) low) 0) (max (min 800 high) 0) = allowed at hmin hmax ⊢
  simp only [npClip]
  split
  · constructor <;> omega
  · constructor <;> omega

theorem limited_zero (last : Int) : Limited last 0 := by
  constructor <;> omega

/-- The last torques from which the limiter's descent stays within what the firmware's driver
limit always leaves. The host's own torques are within 800 of zero. -/
def InReach (last : Int) : Prop := -1959 ≤ last ∧ last ≤ 1960

theorem Limited.inReach {last t : Int} (h : Limited last t) (hl : InReach last) : InReach t := by
  obtain ⟨_, _, hhigh, hlow⟩ := h
  unfold InReach at hl ⊢
  omega

/-! ## Firmware -/

structure DriverBounds (s : Sample) : Prop where
  max : -127 ≤ s.max
  min : s.min ≤ 128

theorem foldl_max_ge (vs : List Int) (m : Int) :
    m ≤ vs.foldl (fun m x => if x > m then x else m) m := by
  induction vs generalizing m with
  | nil => exact le_refl m
  | cons v vs ih =>
    rw [List.foldl_cons]
    split
    · have h := ih v
      omega
    · exact ih m

theorem foldl_min_le (vs : List Int) (m : Int) :
    vs.foldl (fun m x => if x < m then x else m) m ≤ m := by
  induction vs generalizing m with
  | nil => exact le_refl m
  | cons v vs ih =>
    rw [List.foldl_cons]
    split
    · have h := ih v
      omega
    · exact ih m

theorem updateSample_bounds (s : Sample) (b : UInt8) :
    DriverBounds (updateSample s (driverSample b)) := by
  have hb : b.toNat < 256 := b.toNat_lt
  constructor
  · have h := foldl_max_ge (updateSample s (driverSample b)).values.toList (driverSample b)
    have hmax : -127 ≤ driverSample b := by
      unfold driverSample
      omega
    exact le_trans hmax h
  · have h := foldl_min_le (updateSample s (driverSample b)).values.toList (driverSample b)
    have hmin : driverSample b ≤ 128 := by
      unfold driverSample
      omega
    exact le_trans h hmin

/-- A torque the firmware accepts while controls are allowed, whatever its real-time window and
whatever the driver does. -/
theorem steerTorqueCmdChecks_accepts {ts : UInt32} {v : Vars} {t : Int}
    (hallowed : v.controlsAllowed = true) (hdriver : DriverBounds v.torqueDriver)
    (hup : t ≤ max v.steer.desiredTorqueLast 0 + 80)
    (hdown : min v.steer.desiredTorqueLast 0 - 80 ≤ t) (hhigh : t ≤ 1935) (hlow : -1934 ≤ t) :
    (steerTorqueCmdChecks ts t (-1) mazdaSteeringLimits v).1 = false := by
  obtain ⟨hmax, hmin⟩ := hdriver
  have hglobal : maxLimitCheck t 2047 (-2047) = false := by
    rw [maxLimitCheck_false]
    omega
  have hrate : driverLimitCheck t v.steer.desiredTorqueLast v.torqueDriver 2047 80 50 15 1 =
      false := by
    simp only [driverLimitCheck, maxLimitCheck_false]
    omega
  have hrt : rtTorqueRateLimitCheck t v.steer.rtTorqueLast 2047 = false := by
    simp only [rtTorqueRateLimitCheck, maxLimitCheck_false]
    omega
  simp [steerTorqueCmdChecks, steerTorqueChecks, hallowed, steerTorqueLimitChecks,
    mazdaSteeringLimits, hglobal, hrate, hrt, steerReqChecks]

theorem limited_accepted (ts : UInt32) {v : Vars} {t : Int} (hallowed : v.controlsAllowed = true)
    (hdriver : DriverBounds v.torqueDriver) (hreach : InReach v.steer.desiredTorqueLast)
    (h : Limited v.steer.desiredTorqueLast t) :
    (steerTorqueCmdChecks ts t (-1) mazdaSteeringLimits v).1 = false := by
  obtain ⟨hup, hdown, hhigh, hlow⟩ := h
  obtain ⟨hlo, hhi⟩ := hreach
  exact steerTorqueCmdChecks_accepts hallowed hdriver hup hdown (by omega) (by omega)

theorem zero_accepted (ts : UInt32) {v : Vars} (hallowed : v.controlsAllowed = true)
    (hdriver : DriverBounds v.torqueDriver) :
    (steerTorqueCmdChecks ts 0 (-1) mazdaSteeringLimits v).1 = false :=
  steerTorqueCmdChecks_accepts hallowed hdriver (by omega) (by omega) (by decide) (by decide)

theorem steerTorqueCmdChecks_last (ts : UInt32) (t : Int) {v : Vars}
    (hallowed : v.controlsAllowed = true) :
    (steerTorqueCmdChecks ts t (-1) mazdaSteeringLimits v).2.steer.desiredTorqueLast =
      if (steerTorqueCmdChecks ts t (-1) mazdaSteeringLimits v).1 then 0 else t := by
  simp only [steerTorqueCmdChecks, hallowed, steerTorqueChecks_last, Bool.not_true, Bool.or_false]

end Steering
end MazdaPort
