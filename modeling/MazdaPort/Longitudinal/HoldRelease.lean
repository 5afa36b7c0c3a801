import MazdaPort.Longitudinal.CarController

/-!
# MazdaPort.Longitudinal.HoldRelease

The hold at standstill and its release. A release stands in a frame when the driver overrides or
presses the gas, when the planner is starting, or while a RES unlatch is recent.

`holdApplied_iff`: in every frame at standstill the commanded acceleration is the hold's until a
release stands and the planner's from then on, exactly when no frame has a release other than a
RES unlatch with the planner asking for anything but the hold's own acceleration. The frames drop
their stop bits on all of the releases; the clamp on the acceleration looks at `release_brake`
alone.
-/

namespace MazdaPort
namespace Longitudinal

open Run

/-! ## The commanded acceleration -/

section Accel

variable {cp : CarParams} {s : Controller} {i : Input}

/-- The state and the release that the later parts of a frame see. -/
theorem longFrame_accel : (longFrame cp s i).accel =
    accelCommand
      (phaseStep cp.vEgoStarting (holdStep (ready cp s i) i).1 (holdStep (ready cp s i) i).2 i).1
      (holdStep (ready cp s i) i).2
      (phaseStep cp.vEgoStarting (holdStep (ready cp s i) i).1 (holdStep (ready cp s i) i).2 i).2
      i := rfl

theorem resumeWindow_iff (hlong : i.cc.longActive = true) :
    resumeWindow cp s i = true ↔ unlatches cp s i = true ∨ 1 < s.resumeReleaseFrames := by
  simp [resumeWindow, hlong]

theorem accel_window (hlong : i.cc.longActive = true) (hw : resumeWindow cp s i = true) :
    (longFrame cp s i).accel = max i.cc.accel 0 := by
  have hpos := releaseFrames_pos.2 ((resumeWindow_iff hlong).1 hw)
  rw [longFrame_accel, holdStep_active hlong]
  simp only [phaseStep, accelCommand, hlong, if_true]
  rw [if_pos hpos]

theorem not_window (hlong : i.cc.longActive = true) (hw : resumeWindow cp s i = false) :
    unlatches cp s i = false ∧
      ¬ 0 < (if unlatches cp s i then resumeReleaseFrames else s.resumeReleaseFrames - 1) := by
  have hno : ¬ (unlatches cp s i = true ∨ 1 < s.resumeReleaseFrames) := by
    rw [← resumeWindow_iff hlong]
    simp [hw]
  refine ⟨by simpa using fun h => hno (.inl h), fun hpos => hno (releaseFrames_pos.1 hpos)⟩

theorem accel_standstill (hlong : i.cc.longActive = true) (hst : i.cs.standstill = true)
    (hw : resumeWindow cp s i = false) : (longFrame cp s i).accel =
      if holding s i && decide (holdRequestFrames < s.standstillHoldFrames + 1) then
        holdLatchedAccel
      else holdBrakeAccel := by
  obtain ⟨hu, hpos⟩ := not_window hlong hw
  rw [longFrame_accel, holdStep_active hlong]
  simp only [phaseStep, accelCommand, hlong, hst, if_true, if_neg hpos]
  cases hh : holding s i with
  | true =>
    have hlatched : ((i.cc.stopping || s.stopIntentLatched) &&
        !baseReleaseHoldRequested s i) = true := by
      simpa [holding, hlong, hst] using hh
    simp_all
  | false => 
    have hlatched : ((i.cc.stopping || s.stopIntentLatched) &&
        !baseReleaseHoldRequested s i) = false := by
      simpa [holding, hlong, hst] using hh
    simp_all

theorem accel_moving (hlong : i.cc.longActive = true) (hst : i.cs.standstill = false)
    (hw : resumeWindow cp s i = false) : (longFrame cp s i).accel =
      if (i.cc.stopping || s.stopIntentLatched && decide (i.cs.vEgo < nearStopEntrySpeed)) &&
          !baseReleaseHoldRequested s i then
        min i.cc.accel (nearStopBrakeAccel i.cs.vEgo)
      else i.cc.accel := by
  obtain ⟨hu, hpos⟩ := not_window hlong hw
  rw [longFrame_accel, holdStep_active hlong]
  simp only [phaseStep, accelCommand, hlong, hst, if_true, if_neg hpos]
  rw [if_neg Bool.false_ne_true]
  -- A speed below the entry speed does not clear the latch; above it only `stopping` keeps it.
  have hcleared : decide (i.cs.vEgo < nearStopEntrySpeed) = true →
      decide (i.cs.vEgo > nearStopEntrySpeed) = false := by
    simpa using fun h => le_of_lt h
  congr 1
  rw [hu]
  cases i.cc.stopping <;> cases hv : decide (i.cs.vEgo < nearStopEntrySpeed) <;>
    simp_all

end Accel

/-! ## Hold until release -/

/-- The releases that are no RES unlatch. -/
def released (i : Input) : Bool := i.cc.override || i.cs.gasPressed || i.cc.starting

/-- What the acceleration of a frame at standstill has to be: `resuming` while a RES unlatch is
recent, `free` on any other release, `lasted` once the hold has lasted its six seconds. -/
structure Hold (planner accel : Rat) (resuming free lasted : Prop) : Prop where
  window : resuming → accel = max planner 0
  planned : ¬ resuming → free → accel = planner
  latched : ¬ resuming → ¬ free → lasted → accel = holdLatchedAccel
  braking : ¬ resuming → ¬ free → ¬ lasted → accel = holdBrakeAccel
  negative : ¬ resuming → ¬ free → accel < 0

/-- The hold is applied exactly until it is released, in the frame of `i` after those of `es`. Only
every second frame hands its acceleration to `create_longitudinal_messages`. -/
def HoldApplied (vEgoStarting : Rat) (es : List Input) (i : Input) : Prop :=
  i.cc.longActive = true → i.cs.standstill = true →
    (run (step (alphaLong vEgoStarting)) {} es).frame % longCommandStep = 0 →
      Hold i.cc.accel
        (longFrame (alphaLong vEgoStarting) (run (step (alphaLong vEgoStarting)) {} es) i).accel
        (Resuming (alphaLong vEgoStarting) (es ++ [i])) (released i = true)
        (Lasted (step (alphaLong vEgoStarting)) (fun s i => holding s i = true)
          (holdRequestFrames + 1) {} (es ++ [i]))

/-- No frame is released by the driver or by `starting`, outside the resume window, with the planner
asking for anything but the hold brake. -/
def ReleasedAsHeld (vEgoStarting : Rat) (s : Controller) (i : Input) : Prop :=
  i.cc.longActive = true → i.cs.standstill = true → s.frame % longCommandStep = 0 →
    resumeWindow (alphaLong vEgoStarting) s i = false → released i = true →
      i.cc.accel = holdBrakeAccel

theorem holdBrakeAccel_neg : holdBrakeAccel < 0 := by decide +kernel

theorem holdLatchedAccel_neg : holdLatchedAccel < 0 := by decide +kernel

theorem not_holding_of_released {s : Controller} {i : Input} (h : released i = true) :
    holding s i = false := by
  have hbase : baseReleaseHoldRequested s i = true := by
    simp only [released, baseReleaseHoldRequested] at h ⊢
    rw [h, Bool.true_or]
  simp [holding, hbase]

/-- The hold has lasted long enough in a frame that holds and comes after enough of them. -/
theorem lasted_snoc {vEgoStarting : Rat} (es : List Input) {i : Input} :
    Lasted (step (alphaLong vEgoStarting)) (fun s i => holding s i = true) (holdRequestFrames + 1)
        {} (es ++ [i]) ↔
      (holding (run (step (alphaLong vEgoStarting)) {} es) i &&
        decide (holdRequestFrames <
          (run (step (alphaLong vEgoStarting)) {} es).standstillHoldFrames + 1)) = true := by
  rw [lasted_succ_snoc, ← hold_iff, Bool.and_eq_true, decide_eq_true_iff, Nat.lt_add_one_iff,
    and_comm]

theorem holdApplied_frame (vEgoStarting : Rat) (es : List Input) (i : Input) :
    HoldApplied vEgoStarting es i ↔
      ReleasedAsHeld vEgoStarting (run (step (alphaLong vEgoStarting)) {} es) i := by
  unfold HoldApplied ReleasedAsHeld
  refine forall_congr' fun hlong => forall_congr' fun hst => forall_congr' fun _ => ?_
  rw [resuming_snoc, lasted_snoc]
  cases hw : resumeWindow (alphaLong vEgoStarting) (run (step (alphaLong vEgoStarting)) {} es) i with
  | true =>
    refine ⟨fun _ h => by simp at h, fun _ => ?_⟩
    exact ⟨fun _ => accel_window hlong hw, by simp, by simp, by simp, by simp⟩
  | false =>
    rw [accel_standstill hlong hst hw]
    cases hr : released i with
    | true =>
      rw [not_holding_of_released hr]
      constructor
      · intro h _ _
        simpa using (h.planned (by simp) rfl).symm
      · intro h
        refine ⟨by simp, fun _ _ => ?_, by simp, by simp, by simp⟩
        simpa using (h rfl rfl).symm
    | false =>
      refine ⟨fun _ _ h => by simp at h, fun _ => ?_⟩
      refine ⟨by simp, by simp, fun _ _ h => if_pos h, fun _ _ h => if_neg h, fun _ _ => ?_⟩
      split
      · exact holdLatchedAccel_neg
      · exact holdBrakeAccel_neg

/-- The hold is applied exactly until it is released in every frame of a run if and only if no
frame of it is released outside the resume window with the planner asking for anything but the hold
brake: there the clamp goes on with the hold brake. -/
theorem holdApplied_iff (vEgoStarting : Rat) (es : List Input) :
    (∀ pre i, pre ++ [i] <+: es → HoldApplied vEgoStarting pre i) ↔
      AllSteps (step (alphaLong vEgoStarting)) (ReleasedAsHeld vEgoStarting) {} es := by
  rw [allSteps_iff_forall]
  exact forall_congr' fun pre => forall_congr' fun i => imp_congr_right fun _ =>
    holdApplied_frame vEgoStarting pre i

/-- The driver presses the gas on a car at standstill, the planner asks for 1 m/s². -/
def gasAtStandstill : Input :=
  { cc := { longActive := true, accel := 1 }
    cs := { standstill := true, gasPressed := true } }

/-- The hold brake stays on under the driver's gas. -/
theorem gasAtStandstill_held :
    ¬ ∀ pre i, pre ++ [i] <+: [gasAtStandstill] → HoldApplied (1 / 2) pre i := by
  intro h
  have hframe := (holdApplied_frame (1 / 2) [] gasAtStandstill).1
    (h [] gasAtStandstill (List.prefix_refl _))
  have hbrake : gasAtStandstill.cc.accel = holdBrakeAccel :=
    hframe rfl rfl rfl (by decide +kernel) rfl
  exact absurd hbrake (by decide +kernel)

end Longitudinal
end MazdaPort
