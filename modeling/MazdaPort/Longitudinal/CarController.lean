import MazdaPort.Longitudinal.CrzCtrl
import MazdaPort.Longitudinal.Engaged
import MazdaPort.Steering.Limiter

/-!
# MazdaPort.Longitudinal.CarController

`CarController.update` of `car/mazda/carcontroller.py`. One frame has three parts: `holdStep`
moves the stop intent, the hold and the resume counters on, `phaseStep` derives from them what the
consumers are told, and `accelCommand` clamps the planner's acceleration. `update` sends the frames.

`holdStep_active` is the hold state machine of a frame in one record. Its counters stand for
stretches of frames: `hold_iff` for the hold, `resuming_iff` for the release after a RES.
-/

namespace MazdaPort
namespace Longitudinal

open Can
open Steering (pyRound applyDriverSteerTorqueLimits mazdaParams)

/-! ## Constants -/

def dtCtrl : Rat := 1 / 100

def ctrlFrames (seconds : Rat) : Nat := (pyRound (seconds / dtCtrl)).toNat

def crzCtrlLatchFrames : Nat := ctrlFrames 2

def crzCtrlPassiveFrames : Nat := ctrlFrames (96 / 10)

def crzCtrlResumeReactivateFrames : Nat := ctrlFrames (8 / 100)

def crzInfoResumePhaseFrames : Nat := ctrlFrames (20 / 100)

def holdRequestFrames : Nat := ctrlFrames 6

def resumeReleaseFrames : Nat := ctrlFrames (5 / 10)

def longCommandStep : Nat := 2

def testerPresentStep : Nat := 50

def nearStopEntrySpeed : Rat := 1

def holdBrakeCmdTarget : Rat := -1024

def holdLatchedCmdTarget : Rat := -1

def nearStopBrakeCmdTarget : Rat := -750

def holdBrakeAccel : Rat := holdBrakeCmdTarget / accelScaleDownV.headD 0

def holdLatchedAccel : Rat := holdLatchedCmdTarget / accelScaleDownV.headD 0

def nearStopBrakeAccel (vEgo : Rat) : Rat :=
  let ratio := clip (vEgo / nearStopEntrySpeed) 0 1
  let target := holdBrakeCmdTarget + (nearStopBrakeCmdTarget - holdBrakeCmdTarget) * ratio
  target / accelScaleDownV.headD 0

/-! ## Inputs -/

inductive LongControlState where
  | off
  | pid
  | stopping
  | starting
  deriving DecidableEq, Repr

inductive VisualAlert where
  | none
  | ldw
  | steerRequired
  | other
  deriving DecidableEq, Repr

/-- `CarControl`, as far as `update` reads it. -/
structure CarControl where
  latActive : Bool := false
  torque : Rat := 0
  longActive : Bool := false
  accel : Rat := 0
  longControlState : LongControlState := .off
  cancel : Bool := false
  resume : Bool := false
  override : Bool := false
  leadVisible : Bool := false
  visualAlert : VisualAlert := .none
  deriving DecidableEq, Repr

/-- `CarState`, as far as `update` reads it. -/
structure CarState where
  standstill : Bool := false
  vEgo : Rat := 0
  gasPressed : Bool := false
  brakePressed : Bool := false
  steeringTorque : Int := 0
  accelButton : Bool := false
  crzBtnsCounter : Nat := 0
  lkasAllowedSpeed : Bool := false
  deriving DecidableEq, Repr

/-- `_OBSERVED_CRZ_INFO`, with the frames that `set_observed_crz_info` takes. -/
abbrev ObservedInfo := { o : Observed // ∀ raw, o false = some raw → 8 ≤ raw.length }

theorem unobserved_valid (raw : List UInt8) (h : (none : Option (List UInt8)) = some raw) :
    8 ≤ raw.length := by
  cases h

def unobserved : ObservedInfo := ⟨fun _ => none, unobserved_valid⟩

/-- One call of `update`, with what `longitudinal.py` remembers of the radar by then. -/
structure Input where
  cc : CarControl
  cs : CarState
  observedInfo : ObservedInfo := unobserved
  ctrlMemory : CtrlMemory := {}

structure CarParams where
  openpilotLongitudinalControl : Bool
  vEgoStarting : Rat

/-- The fields of the controller. -/
structure Controller where
  frame : Nat := 0
  applyTorqueLast : Int := 0
  brakeCounter : Nat := 0
  longCounter : Nat := 0
  standstillHoldFrames : Nat := 0
  stopIntentLatched : Bool := false
  resumeReleaseFrames : Nat := 0
  resumeCrzLatchedFrames : Nat := 0
  resumePhaseFrames : Nat := 0
  resumeCtrlActivePrev : Bool := false
  virtualResumeSentLatched : Bool := false
  resumeButtonPrev : Bool := false
  deriving DecidableEq, Repr

inductive Buttons where
  | resume
  | cancel
  deriving DecidableEq, Repr

inductive CanSend where
  | button (counter : Nat) (button : Buttons)
  | testerPresent
  | crzInfo (raw : List UInt8)
  | crzCtrl (raw : List UInt8)
  | alert (ldw steerRequired : Bool)
  | steering (frame : Nat) (applyTorque : Int)
  deriving DecidableEq, Repr

/-! ## The hold state machine -/

/-- What a frame makes of RES and of the release of the hold. -/
structure Release where
  effectiveResumeRequested : Bool := false
  releaseHoldRequested : Bool := false
  deriving DecidableEq, Repr

def CarControl.stopping (cc : CarControl) : Bool := cc.longControlState == .stopping

def CarControl.starting (cc : CarControl) : Bool := cc.longControlState == .starting

/-- "do not start the synthetic unlatch path until the first RES frame has actually been
transmitted" -/
def latchVirtualResume (s : Controller) (i : Input) (virtualResumeSent : Bool) : Controller :=
  if !i.cc.resume || !i.cs.standstill then { s with virtualResumeSentLatched := false }
  else if virtualResumeSent then { s with virtualResumeSentLatched := true }
  else s

/-- `resume_unlatch_requested`, where the virtual latch is up to date. -/
def resumeUnlatchRequested (s : Controller) (i : Input) : Bool :=
  let physicalResumeRequested := i.cs.accelButton
  let virtualResumeRequested := i.cc.resume && s.virtualResumeSentLatched
  let holdLatchedReady := i.cs.standstill && decide (s.standstillHoldFrames > holdRequestFrames)
  let physical :=
    i.cs.standstill && physicalResumeRequested && (!i.cc.stopping || holdLatchedReady)
  let virtual := i.cs.standstill && virtualResumeRequested && holdLatchedReady
  physical || virtual

/-- `base_release_hold_requested`. -/
def baseReleaseHoldRequested (s : Controller) (i : Input) : Bool :=
  i.cc.override || i.cs.gasPressed || i.cc.starting || decide (s.resumeReleaseFrames > 0)

/-- The branches on `CC.longActive`. -/
def holdStep (s : Controller) (i : Input) : Controller × Release :=
  if !i.cc.longActive then
    ({ s with
        standstillHoldFrames := 0
        stopIntentLatched := false
        resumeReleaseFrames := 0
        resumeCrzLatchedFrames := 0
        resumePhaseFrames := 0
        resumeCtrlActivePrev := false
        virtualResumeSentLatched := false }, {})
  else
    let stopIntentLatched := i.cc.stopping || s.stopIntentLatched
    let unlatch := resumeUnlatchRequested s i
    let risingEdge := unlatch && !s.resumeButtonPrev
    let baseRelease := baseReleaseHoldRequested s i
    let standstillHoldFrames :=
      if i.cs.standstill && stopIntentLatched && !baseRelease then s.standstillHoldFrames + 1
      else 0
    let resumeCrzLatchedFrames :=
      if i.cs.standstill && !baseRelease && risingEdge &&
          decide (standstillHoldFrames ≥ crzCtrlPassiveFrames) then crzCtrlResumeReactivateFrames
      else s.resumeCrzLatchedFrames - 1
    let releaseFrames := if unlatch then resumeReleaseFrames else s.resumeReleaseFrames - 1
    let releaseHold := baseRelease || unlatch || decide (releaseFrames > 0)
    let cleared := releaseHold ||
      (!i.cs.standstill && !i.cc.stopping && decide (i.cs.vEgo > nearStopEntrySpeed))
    ({ s with
        standstillHoldFrames := standstillHoldFrames
        stopIntentLatched := stopIntentLatched && !cleared
        resumeReleaseFrames := releaseFrames
        resumeCrzLatchedFrames := resumeCrzLatchedFrames },
      { effectiveResumeRequested := unlatch, releaseHoldRequested := releaseHold })

/-! ## What the consumers are told -/

structure Phase where
  stopGoRequest : Bool
  holdLatched : Bool
  crzHoldLatched : Bool
  crzHoldPassive : Bool
  crzCtrlResumeActive : Bool
  crzInfoResumeUnlatching : Bool
  crzInfoHoldRequest : Bool
  deriving DecidableEq, Repr

def phaseStep (vEgoStarting : Rat) (s : Controller) (r : Release) (i : Input) :
    Controller × Phase :=
  let stopGoRequest := i.cc.longActive && s.stopIntentLatched && !r.releaseHoldRequested
  let standstillHoldRequest := stopGoRequest && i.cs.standstill
  let holdLatched := standstillHoldRequest && decide (s.standstillHoldFrames > holdRequestFrames)
  let brakeReleaseRequested := r.releaseHoldRequested || r.effectiveResumeRequested
  let crzHoldLatched :=
    standstillHoldRequest && decide (s.standstillHoldFrames ≥ crzCtrlLatchFrames) &&
      (!r.effectiveResumeRequested || decide (s.resumeCrzLatchedFrames > 0))
  let crzHoldPassive :=
    standstillHoldRequest && decide (s.standstillHoldFrames ≥ crzCtrlPassiveFrames) &&
      !r.effectiveResumeRequested
  let releaseBrake := decide (s.resumeReleaseFrames > 0)
  let crzCtrlResumeActive :=
    releaseBrake && decide (i.cs.vEgo < vEgoStarting) && !crzHoldLatched && !crzHoldPassive
  let resumePhaseFrames :=
    if crzCtrlResumeActive then
      if !s.resumeCtrlActivePrev then crzInfoResumePhaseFrames else s.resumePhaseFrames - 1
    else 0
  ({ s with
      resumePhaseFrames := resumePhaseFrames
      resumeCtrlActivePrev := crzCtrlResumeActive },
    { stopGoRequest := stopGoRequest
      holdLatched := holdLatched
      crzHoldLatched := crzHoldLatched
      crzHoldPassive := crzHoldPassive
      crzCtrlResumeActive := crzCtrlResumeActive
      crzInfoResumeUnlatching := crzCtrlResumeActive && decide (resumePhaseFrames > 0)
      crzInfoHoldRequest := stopGoRequest && !(brakeReleaseRequested || releaseBrake) })

/-- The acceleration for `create_longitudinal_messages`. -/
def accelCommand (s : Controller) (r : Release) (p : Phase) (i : Input) : Rat :=
  if i.cc.longActive then
    let accel := i.cc.accel
    if s.resumeReleaseFrames > 0 then max accel 0
    else if i.cs.standstill then if p.holdLatched then holdLatchedAccel else holdBrakeAccel
    else if s.stopIntentLatched && !r.releaseHoldRequested &&
        (i.cc.stopping || decide (i.cs.vEgo < nearStopEntrySpeed)) then
      min accel (nearStopBrakeAccel i.cs.vEgo)
    else accel
  else 0

/-! ## Frames -/

/-- `create_longitudinal_messages`. Neither caller passes `acc_set_allowed`. -/
def createLongitudinalMessages (i : Input) (accel : Rat) (counter : Nat) (p : Phase) :
    List CanSend :=
  [.crzInfo (buildCrzInfo i.observedInfo.val accel counter i.cc.longActive p.crzInfoHoldRequest
      i.cs.vEgo p.holdLatched true p.crzInfoResumeUnlatching),
    .crzCtrl (buildCrzCtrl i.ctrlMemory
      { longActive := i.cc.longActive
        leadVisible := i.cc.leadVisible
        holdRequest := p.stopGoRequest
        holdLatched := p.holdLatched
        crzHoldLatched := p.crzHoldLatched
        crzHoldPassive := p.crzHoldPassive
        crzResumeActive := p.crzCtrlResumeActive })]

/-- The buttons of stock ACC, and those that `update` sends in openpilot's longitudinal control. The
last component is `virtual_resume_sent`. -/
def buttonStep (cp : CarParams) (s : Controller) (i : Input) : Controller × List CanSend × Bool :=
  if !cp.openpilotLongitudinalControl then
    if i.cc.cancel then
      let s := { s with brakeCounter := s.brakeCounter + 1 }
      if s.frame % 10 == 0 && !(i.cs.brakePressed && decide (s.brakeCounter < 7)) then
        (s, [.button i.cs.crzBtnsCounter .cancel], false)
      else (s, [], false)
    else
      let s := { s with brakeCounter := 0 }
      if i.cc.resume && s.frame % 5 == 0 then
        (s, [.button i.cs.crzBtnsCounter .resume], false)
      else (s, [], false)
  else
    let s := { s with brakeCounter := 0 }
    if i.cs.standstill && i.cc.resume && s.frame % 5 == 0 then
      (s, [.button i.cs.crzBtnsCounter .resume], true)
    else (s, [], false)

/-- What the longitudinal part of a frame comes to. -/
structure LongFrame where
  next : Controller
  release : Release
  phase : Phase
  accel : Rat
  sends : List CanSend

def longStep (cp : CarParams) (s : Controller) (i : Input) (virtualResumeSent : Bool) :
    LongFrame :=
  let s := latchVirtualResume s i virtualResumeSent
  let h := holdStep s i
  let p := phaseStep cp.vEgoStarting h.1 h.2 i
  let accel := accelCommand p.1 h.2 p.2 i
  let sends :=
    (if s.frame % testerPresentStep == 0 then [.testerPresent] else []) ++
      if s.frame % longCommandStep == 0 then
        createLongitudinalMessages i accel p.1.longCounter p.2
      else []
  let next :=
    if s.frame % longCommandStep == 0 then
      { p.1 with longCounter := (p.1.longCounter + 1) % 16 }
    else p.1
  { next := { next with resumeButtonPrev := h.2.effectiveResumeRequested }
    release := h.2
    phase := p.2
    accel := accel
    sends := sends }

def updateTorque (s : Controller) (i : Input) : Int :=
  if i.cc.latActive then
    applyDriverSteerTorqueLimits (pyRound (i.cc.torque * mazdaParams.steerMax)) s.applyTorqueLast
      i.cs.steeringTorque mazdaParams
  else 0

/-- What `update` changes in the actuators that it returns. -/
structure NewActuators where
  torque : Rat
  torqueOutputCan : Int

def update (cp : CarParams) (s : Controller) (i : Input) :
    Controller × NewActuators × List CanSend :=
  let applyTorque := updateTorque s i
  let b := buttonStep cp s i
  let s := { b.1 with applyTorqueLast := applyTorque }
  let long :=
    if cp.openpilotLongitudinalControl then
      let l := longStep cp s i b.2.2
      (l.next, l.sends)
    else ({ s with resumeButtonPrev := false }, [])
  let s := long.1
  let ldw := i.cc.visualAlert == .ldw
  let steerRequired := i.cc.visualAlert == .steerRequired && i.cs.lkasAllowedSpeed
  let alert := if s.frame % 50 == 0 then [CanSend.alert ldw steerRequired] else []
  ({ s with frame := s.frame + 1 },
    { torque := applyTorque / mazdaParams.steerMax, torqueOutputCan := applyTorque },
    b.2.1 ++ long.2 ++ alert ++ [.steering s.frame applyTorque])

/-! ## Runs under openpilot's longitudinal control -/

def alphaLong (vEgoStarting : Rat) : CarParams :=
  { openpilotLongitudinalControl := true, vEgoStarting := vEgoStarting }

def step (cp : CarParams) (s : Controller) (i : Input) : Controller := (update cp s i).1

/-- The state in which a frame comes to its hold state machine. -/
def ready (cp : CarParams) (s : Controller) (i : Input) : Controller :=
  latchVirtualResume { (buttonStep cp s i).1 with applyTorqueLast := updateTorque s i } i
    (buttonStep cp s i).2.2

/-- The longitudinal part of a frame. -/
def longFrame (cp : CarParams) (s : Controller) (i : Input) : LongFrame :=
  longStep cp { (buttonStep cp s i).1 with applyTorqueLast := updateTorque s i } i
    (buttonStep cp s i).2.2

theorem buttonStep_fields (cp : CarParams) (s : Controller) (i : Input) :
    ∃ n, (buttonStep cp s i).1 = { s with brakeCounter := n } := by
  unfold buttonStep
  split
  · split
    · dsimp only
      split <;> exact ⟨_, rfl⟩
    · dsimp only
      split <;> exact ⟨_, rfl⟩
  · dsimp only
    split <;> exact ⟨_, rfl⟩

/-- What comes before the hold state machine leaves its counters alone. -/
theorem ready_fields (cp : CarParams) (s : Controller) (i : Input) :
    ∃ n t v, ready cp s i =
      { s with brakeCounter := n, applyTorqueLast := t, virtualResumeSentLatched := v } := by
  obtain ⟨n, hn⟩ := buttonStep_fields cp s i
  unfold ready latchVirtualResume
  rw [hn]
  split
  · exact ⟨_, _, _, rfl⟩
  · split <;> exact ⟨_, _, _, rfl⟩

section Ready

variable (cp : CarParams) (s : Controller) (i : Input)

@[simp] theorem ready_frame : (ready cp s i).frame = s.frame := by
  obtain ⟨n, t, v, h⟩ := ready_fields cp s i
  rw [h]

@[simp] theorem ready_longCounter : (ready cp s i).longCounter = s.longCounter := by
  obtain ⟨n, t, v, h⟩ := ready_fields cp s i
  rw [h]

@[simp] theorem ready_standstillHoldFrames :
    (ready cp s i).standstillHoldFrames = s.standstillHoldFrames := by
  obtain ⟨n, t, v, h⟩ := ready_fields cp s i
  rw [h]

@[simp] theorem ready_stopIntentLatched :
    (ready cp s i).stopIntentLatched = s.stopIntentLatched := by
  obtain ⟨n, t, v, h⟩ := ready_fields cp s i
  rw [h]

@[simp] theorem ready_resumeReleaseFrames :
    (ready cp s i).resumeReleaseFrames = s.resumeReleaseFrames := by
  obtain ⟨n, t, v, h⟩ := ready_fields cp s i
  rw [h]

@[simp] theorem ready_resumeButtonPrev : (ready cp s i).resumeButtonPrev = s.resumeButtonPrev := by
  obtain ⟨n, t, v, h⟩ := ready_fields cp s i
  rw [h]

@[simp] theorem baseReleaseHoldRequested_ready :
    baseReleaseHoldRequested (ready cp s i) i = baseReleaseHoldRequested s i := by
  simp [baseReleaseHoldRequested]

end Ready

/-- A RES unlatch request in this frame. -/
def unlatches (cp : CarParams) (s : Controller) (i : Input) : Bool :=
  resumeUnlatchRequested (ready cp s i) i

/-- The stop intent is latched, the car stands and nothing but a RES of this frame releases it. -/
def holding (s : Controller) (i : Input) : Bool :=
  i.cc.longActive && i.cs.standstill && (i.cc.stopping || s.stopIntentLatched) &&
    !baseReleaseHoldRequested s i

/-- The resume window runs in this frame. -/
def resumeWindow (cp : CarParams) (s : Controller) (i : Input) : Bool :=
  i.cc.longActive && (unlatches cp s i || decide (1 < s.resumeReleaseFrames))

/-! ## Step lemmas -/

theorem resumeReleaseFrames_eq : resumeReleaseFrames = 50 := by decide +kernel

section Step

variable {cp : CarParams} {s : Controller} {i : Input}

theorem releaseFrames_pos :
    0 < (if unlatches cp s i then resumeReleaseFrames else s.resumeReleaseFrames - 1) ↔
      unlatches cp s i = true ∨ 1 < s.resumeReleaseFrames := by
  rw [resumeReleaseFrames_eq]
  split <;> grind

/-- What a frame with `longActive` does to the hold state machine. -/
theorem holdStep_active (hlong : i.cc.longActive = true) :
    holdStep (ready cp s i) i =
      ({ ready cp s i with
          standstillHoldFrames := if holding s i then s.standstillHoldFrames + 1 else 0
          stopIntentLatched :=
            (i.cc.stopping || s.stopIntentLatched) &&
              !(baseReleaseHoldRequested s i || unlatches cp s i ||
                !i.cs.standstill && !i.cc.stopping && decide (i.cs.vEgo > nearStopEntrySpeed))
          resumeReleaseFrames :=
            if unlatches cp s i then resumeReleaseFrames else s.resumeReleaseFrames - 1
          resumeCrzLatchedFrames :=
            if i.cs.standstill && !baseReleaseHoldRequested s i &&
                (unlatches cp s i && !s.resumeButtonPrev) &&
                decide ((if holding s i then s.standstillHoldFrames + 1 else 0) ≥
                  crzCtrlPassiveFrames) then crzCtrlResumeReactivateFrames
            else (ready cp s i).resumeCrzLatchedFrames - 1 },
        { effectiveResumeRequested := unlatches cp s i
          releaseHoldRequested := baseReleaseHoldRequested s i || unlatches cp s i }) := by
  have hwindow : (baseReleaseHoldRequested s i || unlatches cp s i ||
      decide ((if unlatches cp s i then resumeReleaseFrames else s.resumeReleaseFrames - 1) > 0)) =
      (baseReleaseHoldRequested s i || unlatches cp s i) := by
    rw [Bool.eq_iff_iff]
    simp only [gt_iff_lt, releaseFrames_pos, Bool.or_eq_true, decide_eq_true_eq,
      baseReleaseHoldRequested]
    grind
  simp only [holdStep, hlong, Bool.not_true, Bool.false_eq_true, if_false, ready_stopIntentLatched,
    ready_standstillHoldFrames, ready_resumeReleaseFrames, ready_resumeButtonPrev,
    baseReleaseHoldRequested_ready]
  simp only [← unlatches.eq_1, hwindow]
  simp only [holding, hlong, Bool.true_and]

theorem step_hold (hcp : cp.openpilotLongitudinalControl = true) :
    ∃ n b c d, step cp s i =
      { (holdStep (ready cp s i) i).1 with
        resumePhaseFrames := n
        resumeCtrlActivePrev := b
        longCounter := c
        resumeButtonPrev := d
        frame := (holdStep (ready cp s i) i).1.frame + 1 } := by
  unfold step update
  simp only [hcp, if_true]
  unfold longStep phaseStep
  dsimp only
  split
  · exact ⟨_, _, _, _, rfl⟩
  · exact ⟨_, _, _, _, rfl⟩

theorem holdStep_inactive (hoff : i.cc.longActive = false) :
    (holdStep (ready cp s i) i).2 = {} ∧
    (holdStep (ready cp s i) i).1.standstillHoldFrames = 0 ∧
    (holdStep (ready cp s i) i).1.stopIntentLatched = false ∧
    (holdStep (ready cp s i) i).1.resumeReleaseFrames = 0 := by
  simp [holdStep, hoff]

theorem holding_inactive (hoff : i.cc.longActive = false) : holding s i = false := by
  simp [holding, hoff]

variable {vEgoStarting : Rat}

theorem alphaLong_longitudinal (vEgoStarting : Rat) :
    (alphaLong vEgoStarting).openpilotLongitudinalControl = true := rfl

theorem step_frame : (step (alphaLong vEgoStarting) s i).frame = s.frame + 1 := by
  obtain ⟨n, b, c, d, h⟩ := step_hold (s := s) (i := i) (alphaLong_longitudinal vEgoStarting)
  rw [h]
  have : (holdStep (ready (alphaLong vEgoStarting) s i) i).1.frame = s.frame := by
    unfold holdStep
    split <;> simp
  simp [this]

theorem step_standstillHoldFrames : (step (alphaLong vEgoStarting) s i).standstillHoldFrames =
    if holding s i then s.standstillHoldFrames + 1 else 0 := by
  obtain ⟨n, b, c, d, h⟩ := step_hold (s := s) (i := i) (alphaLong_longitudinal vEgoStarting)
  rw [h]
  cases hlong : i.cc.longActive with
  | true => simp [holdStep_active hlong]
  | false => simp [holdStep_inactive hlong, holding_inactive hlong]

theorem step_resumeReleaseFrames : (step (alphaLong vEgoStarting) s i).resumeReleaseFrames =
    if i.cc.longActive then
      if unlatches (alphaLong vEgoStarting) s i then resumeReleaseFrames
      else s.resumeReleaseFrames - 1
    else 0 := by
  obtain ⟨n, b, c, d, h⟩ := step_hold (s := s) (i := i) (alphaLong_longitudinal vEgoStarting)
  rw [h]
  cases hlong : i.cc.longActive with
  | true => simp [holdStep_active hlong]
  | false => simp [holdStep_inactive hlong]

theorem step_resumeButtonPrev : (step (alphaLong vEgoStarting) s i).resumeButtonPrev =
    (i.cc.longActive && unlatches (alphaLong vEgoStarting) s i) := by
  have h : (step (alphaLong vEgoStarting) s i).resumeButtonPrev =
      (holdStep (ready (alphaLong vEgoStarting) s i) i).2.effectiveResumeRequested := rfl
  rw [h]
  cases hlong : i.cc.longActive with
  | true => simp [holdStep_active hlong]
  | false => simp [holdStep_inactive hlong]

/-! ## What the counters stand for -/

open Run

/-- The hold has lasted for the last `n` frames. -/
theorem hold_iff (es : List Input) {n : Nat} :
    n ≤ (run (step (alphaLong vEgoStarting)) {} es).standstillHoldFrames ↔
      Lasted (step (alphaLong vEgoStarting)) (fun s i => holding s i = true) n {} es := by
  refine counter_iff (c := Controller.standstillHoldFrames) ?_ ?_ rfl es
  · intro s i h
    rw [step_standstillHoldFrames, if_pos h]
  · intro s i h
    rw [step_standstillHoldFrames, if_neg h]

/-- A RES unlatch in one of the last `RESUME_RELEASE_FRAMES` frames, with `longActive` ever
since. -/
def Resuming (cp : CarParams) (es : List Input) : Prop :=
  Recent (step cp) (fun s i => (i.cc.longActive && unlatches cp s i) = true)
    (fun _ i => i.cc.longActive = true) resumeReleaseFrames {} es

theorem resuming_iff (es : List Input) :
    0 < (run (step (alphaLong vEgoStarting)) {} es).resumeReleaseFrames ↔
      Resuming (alphaLong vEgoStarting) es := by
  refine timer_iff (t := Controller.resumeReleaseFrames) (N := resumeReleaseFrames) (k := 0)
    ?_ ?_ ?_ rfl es
  · intro s i h
    simp only [Bool.and_eq_true] at h
    rw [step_resumeReleaseFrames, if_pos h.1, if_pos h.2]
  · intro s i h hkeep
    rw [step_resumeReleaseFrames, if_pos hkeep, if_neg]
    simpa [hkeep] using h
  · intro s i _ hclear
    rw [step_resumeReleaseFrames, if_neg hclear]

theorem resuming_snoc (es : List Input) {i : Input} :
    Resuming (alphaLong vEgoStarting) (es ++ [i]) ↔
      resumeWindow (alphaLong vEgoStarting) (run (step (alphaLong vEgoStarting)) {} es) i = true := by
  rw [← resuming_iff, run_snoc, step_resumeReleaseFrames]
  cases hlong : i.cc.longActive with
  | true =>
    rw [if_pos rfl, releaseFrames_pos]
    simp [resumeWindow, hlong]
  | false => simp [resumeWindow, hlong]

end Step

/-! ## What a frame sends -/

section Sends

variable {vEgoStarting : Rat} {s : Controller} {i : Input}

/-- Buttons before the longitudinal messages, an alert and the steering after them. -/
theorem update_sends (vEgoStarting : Rat) : ∃ alert frame torque,
    (∀ send ∈ alert, ∃ ldw required, send = .alert ldw required) ∧
      (update (alphaLong vEgoStarting) s i).2.2 =
        (buttonStep (alphaLong vEgoStarting) s i).2.1 ++
          (longFrame (alphaLong vEgoStarting) s i).sends ++ alert ++ [.steering frame torque] := by
  have halert : ∀ (due ldw required : Bool),
      ∀ send ∈ (if due then [CanSend.alert ldw required] else []),
        ∃ ldw required, send = .alert ldw required := by
    intro due ldw required send hsend
    cases due with
    | true => exact ⟨_, _, List.mem_singleton.1 hsend⟩
    | false => cases hsend
  exact ⟨_, _, _, halert _ _ _, rfl⟩

theorem buttonStep_sends : ∀ send ∈ (buttonStep (alphaLong vEgoStarting) s i).2.1,
    ∃ counter button, send = .button counter button := by
  intro send hsend
  unfold buttonStep at hsend
  simp only [alphaLong, Bool.not_true, Bool.false_eq_true, if_false] at hsend
  split at hsend
  · exact ⟨_, _, List.mem_singleton.1 hsend⟩
  · cases hsend

theorem longFrame_sends : (longFrame (alphaLong vEgoStarting) s i).sends =
    (if s.frame % testerPresentStep == 0 then [.testerPresent] else []) ++
      if s.frame % longCommandStep == 0 then
        createLongitudinalMessages i (longFrame (alphaLong vEgoStarting) s i).accel s.longCounter
          (longFrame (alphaLong vEgoStarting) s i).phase
      else [] := by
  have hcounter : (phaseStep vEgoStarting (holdStep (ready (alphaLong vEgoStarting) s i) i).1
      (holdStep (ready (alphaLong vEgoStarting) s i) i).2 i).1.longCounter = s.longCounter := by
    unfold phaseStep holdStep
    split <;> simp
  rw [← ready_frame (alphaLong vEgoStarting) s i, ← hcounter]
  rfl

/-- The longitudinal messages of a run are those of its even frames. -/
theorem mem_update_sends {send : CanSend}
    (h : (∃ raw, send = .crzInfo raw) ∨ ∃ raw, send = .crzCtrl raw) :
    send ∈ (update (alphaLong vEgoStarting) s i).2.2 ↔
      s.frame % longCommandStep = 0 ∧
        send ∈ createLongitudinalMessages i (longFrame (alphaLong vEgoStarting) s i).accel
          s.longCounter (longFrame (alphaLong vEgoStarting) s i).phase := by
  obtain ⟨alert, frame, torque, halert, hsends⟩ :=
    update_sends vEgoStarting (s := s) (i := i)
  have hsteer : send ≠ .steering frame torque := by
    rintro rfl
    rcases h with ⟨raw, h⟩ | ⟨raw, h⟩ <;> cases h
  have hbutton : send ∉ (buttonStep (alphaLong vEgoStarting) s i).2.1 := by
    intro hmem
    obtain ⟨counter, button, rfl⟩ := buttonStep_sends send hmem
    rcases h with ⟨raw, h⟩ | ⟨raw, h⟩ <;> cases h
  have hno : send ∉ alert := by
    intro hmem
    obtain ⟨ldw, required, rfl⟩ := halert send hmem
    rcases h with ⟨raw, h⟩ | ⟨raw, h⟩ <;> cases h
  have htester : send ≠ .testerPresent := by
    rintro rfl
    rcases h with ⟨raw, h⟩ | ⟨raw, h⟩ <;> cases h
  rw [hsends, longFrame_sends]
  simp only [List.mem_append, hbutton, hno, List.mem_singleton, hsteer, or_false, false_or]
  constructor
  · rintro (hmem | hmem)
    · split at hmem
      · exact absurd (List.mem_singleton.1 hmem) htester
      · cases hmem
    · split at hmem
      · next heven => exact ⟨by simpa using heven, hmem⟩
      · cases hmem
  · rintro ⟨heven, hmem⟩
    refine .inr ?_
    rwa [if_pos (by simpa using heven)]

end Sends

end Longitudinal
end MazdaPort
