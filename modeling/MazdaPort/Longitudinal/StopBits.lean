import MazdaPort.Lib.Slew
import MazdaPort.Longitudinal.HoldRelease

/-!
# MazdaPort.Longitudinal.StopBits

The stop bits of CRZ_INFO beside its ACCEL_CMD. The latch of the stop intent is cleared above the
entry speed, the clamp on the acceleration works below it, and at the entry speed neither does.

`stopBits_brake_iff`: a run never emits a CRZ_INFO frame with both stop bits and an ACCEL_CMD of
zero or more, exactly when it never comes to a frame with a latched stop intent at the entry speed
and a planner that does not brake, and the idle frames observed from the radar do not do it either.
-/

namespace MazdaPort
namespace Longitudinal

open Can Run

/-! ## The sign of ACCEL_CMD -/

theorem clip_lt_iff {x : Rat} : clip x (-2000) 2000 < -1 / 2 ↔ x < -1 / 2 := by
  unfold clip
  rw [min_lt_iff, max_lt_iff]
  constructor
  · rintro (⟨h, -⟩ | h)
    · exact h
    · norm_num at h
  · intro h
    exact .inl ⟨h, by norm_num⟩

/-- Between two breakpoints the value is between theirs. -/
theorem interpSegment_ge {c vEgo : Rat} {points : List (Rat × Rat)}
    (hx : points.Pairwise fun p q => p.1 < q.1) (hy : ∀ p ∈ points, c ≤ p.2)
    (hv : ∀ p ∈ points.head?, p.1 ≤ vEgo) {y : Rat} (h : interpSegment vEgo points = some y) :
    c ≤ y := by
  fun_induction interpSegment vEgo points with
  | case1 x0 y0 x1 y1 rest hle =>
    have hx01 : x0 < x1 := (List.pairwise_cons.1 hx).1 _ (List.mem_cons_self ..)
    have h0 : c ≤ y0 := hy _ (List.mem_cons_self ..)
    have h1 : c ≤ y1 := hy _ (List.mem_cons_of_mem _ (List.mem_cons_self ..))
    cases h
    exact Slew.le_interp hx01 (hv _ rfl) hle h0 h1
  | case2 x0 y0 x1 y1 rest hgt ih =>
    refine ih (List.pairwise_cons.1 hx).2 (fun p hp => hy p (List.mem_cons_of_mem _ hp)) ?_ h
    intro p hp
    cases hp
    exact le_of_not_ge hgt
  | case3 points hshort => cases h

theorem accelScaleDown_ge (vEgo : Rat) :
    925 ≤ interpScale vEgo accelScaleDownBp accelScaleDownV := by
  unfold interpScale
  split
  · decide +kernel
  · next hlow =>
    split
    · decide +kernel
    · cases h : interpSegment vEgo (accelScaleDownBp.zip accelScaleDownV) with
      | none => decide +kernel
      | some y =>
        refine interpSegment_ge (by decide +kernel) (by decide +kernel) ?_ h
        intro p hp
        cases hp
        exact le_of_not_ge hlow

/-- A braking request of at least 1/1850 m/s² is a negative command at any speed. -/
theorem accelToAccelCmd_neg {accel : Rat} (h : accel < -1 / 1850) (vEgo : Rat) :
    accelToAccelCmd accel vEgo < 0 := by
  have hneg : ¬ accel ≥ 0 := by linarith
  have hscale := accelScaleDown_ge vEgo
  rw [accelToAccelCmd, if_neg hneg, pyRound_eq, Rounding.nearestEven_neg_iff, clip_lt_iff]
  nlinarith

theorem accelToAccelCmd_entry (accel : Rat) :
    accelToAccelCmd accel nearStopEntrySpeed < 0 ↔ accel < -7 / 14800 := by
  have hup : interpScale nearStopEntrySpeed accelScaleUpBp accelScaleUpV = 1000 := by
    decide +kernel
  have hdown : interpScale nearStopEntrySpeed accelScaleDownBp accelScaleDownV = 7400 / 7 := by
    decide +kernel
  rw [accelToAccelCmd, hup, hdown, pyRound_eq, Rounding.nearestEven_neg_iff, clip_lt_iff]
  split
  · constructor <;> intro <;> linarith
  · constructor <;> intro <;> linarith

/-! ## The emitted frame -/

/-- Both stop bits come with a braking command. -/
def StopBrakes (raw : List UInt8) : Prop :=
  parseSignal raw stoppingMaybe = 1 → parseSignal raw stoppingMaybe2 = 1 →
    parseSignal raw accelCmd < 0

section Idle

variable (observedInfo : ObservedInfo) (accel : Rat) (counter : Int) (holdRequest : Bool)
  (vEgo : Rat) (holdLatched setAllowed resumeUnlatching : Bool)

theorem idleBase_length : 8 ≤ (idleBase observedInfo.val).length := by
  unfold idleBase
  split
  · next raw hraw =>
    split
    · decide
    · exact observedInfo.property raw hraw
  · decide

/-- The idle frame is its base but for the counter and the checksum. -/
theorem parseSignal_idle {sig : Signal} (hfit : sig.Fits 8) (hapart : ctr1.Apart sig)
    (hbyte : ∀ k < sig.size, sig.bitAt k / 8 ≠ 7) :
    parseSignal (buildCrzInfo observedInfo.val accel counter false holdRequest vEgo holdLatched
        setAllowed resumeUnlatching) sig =
      parseSignal (idleBase observedInfo.val) sig := by
  have hlen := idleBase_length observedInfo
  have hcounter : ctr1.Fits (idleBase observedInfo.val).length :=
    Signal.Fits.mono (by decide) hlen
  have hsig : sig.Fits (idleBase observedInfo.val).length := hfit.mono hlen
  have hnext := patchSignal_length (idleBase observedInfo.val) ctr1 (counter % 16 : Int)
  rw [buildCrzInfo, Bool.not_false, if_pos rfl, parseSignal, parseSignal,
    ← getRawValue_setValue_other hcounter hsig hapart, ← patchSignal_eq]
  congr 2
  refine congrArg _ (getRawValue_congr ?_ ?_ fun k hk => ?_)
  · rwa [updateCrzInfoChecksum_length, hnext]
  · rwa [hnext]
  · exact updateCrzInfoChecksum_bit (by omega) 0 (hbyte k hk)

theorem stopBrakes_idle :
    StopBrakes (buildCrzInfo observedInfo.val accel counter false holdRequest vEgo holdLatched
        setAllowed resumeUnlatching) ↔ StopBrakes (idleBase observedInfo.val) := by
  unfold StopBrakes
  rw [parseSignal_idle _ _ _ _ _ _ _ _ (by decide) (by decide) (by decide),
    parseSignal_idle _ _ _ _ _ _ _ _ (by decide) (by decide) (by decide),
    parseSignal_idle _ _ _ _ _ _ _ _ (by decide) (by decide) (by decide)]

theorem ofBool_eq_one {flag : Bool} : ofBool flag = 1 ↔ flag = true := by
  cases flag <;> simp [ofBool]

theorem stopBrakes_engaged :
    StopBrakes (buildCrzInfo observedInfo.val accel counter true holdRequest vEgo holdLatched
        setAllowed resumeUnlatching) ↔
      ((holdRequest && !holdLatched) = true → accelToAccelCmd accel vEgo < 0) := by
  have hframe := (engagedFrame_round_trip observedInfo.val accel counter holdRequest vEgo
    holdLatched setAllowed resumeUnlatching).1
  unfold StopBrakes
  rw [hframe.stopping, hframe.stopping2, hframe.command, ofBool_eq_one]
  constructor
  · intro h hstop
    exact_mod_cast h hstop hstop
  · intro h hstop _
    exact_mod_cast h hstop

end Idle

theorem holdBrakeAccel_lt : holdBrakeAccel < -1 / 1850 := by decide +kernel

section Stop

variable {cp : CarParams} {s : Controller} {i : Input}

/-- The stop bits of a frame with `longActive`. -/
theorem stoppingActive_eq (hlong : i.cc.longActive = true) :
    ((longFrame cp s i).phase.crzInfoHoldRequest && !(longFrame cp s i).phase.holdLatched) =
      ((i.cc.stopping || s.stopIntentLatched) && !baseReleaseHoldRequested s i &&
        !unlatches cp s i &&
        !(!i.cs.standstill && !i.cc.stopping && decide (i.cs.vEgo > nearStopEntrySpeed)) &&
        !(i.cs.standstill && decide (holdRequestFrames < s.standstillHoldFrames + 1))) := by
  have hphase : (longFrame cp s i).phase =
      (phaseStep cp.vEgoStarting (holdStep (ready cp s i) i).1 (holdStep (ready cp s i) i).2 i).2 :=
    rfl
  rw [hphase, holdStep_active hlong]
  simp only [phaseStep, hlong, Bool.true_and]
  cases hbase : baseReleaseHoldRequested s i with
  | true => simp
  | false =>
    cases hu : unlatches cp s i with
    | true => simp
    | false =>
      have hrelease : s.resumeReleaseFrames = 0 := by
        simp [baseReleaseHoldRequested] at hbase
        exact hbase.2
      have hholding : holding s i = (i.cs.standstill && (i.cc.stopping || s.stopIntentLatched)) := by
        simp [holding, hlong, hbase]
      rw [hholding, hrelease]
      cases i.cs.standstill <;> cases i.cc.stopping || s.stopIntentLatched <;> simp

theorem not_window_of_base (hbase : baseReleaseHoldRequested s i = false)
    (hu : unlatches cp s i = false) : resumeWindow cp s i = false := by
  have hrelease : s.resumeReleaseFrames = 0 := by
    simp [baseReleaseHoldRequested] at hbase
    exact hbase.2
  simp [resumeWindow, hu, hrelease]

theorem nearStopBrakeAccel_lt (vEgo : Rat) : nearStopBrakeAccel vEgo < -1 / 1850 := by
  have hratio : 0 ≤ clip (vEgo / nearStopEntrySpeed) 0 1 := by
    unfold clip
    exact le_min (le_max_right ..) (by norm_num)
  have hratio' : clip (vEgo / nearStopEntrySpeed) 0 1 ≤ 1 := min_le_right ..
  have hscale : accelScaleDownV.headD 0 = 1200 := rfl
  unfold nearStopBrakeAccel
  simp only [hscale, holdBrakeCmdTarget, nearStopBrakeCmdTarget]
  linarith

/-- The stop intent is latched at the entry speed and nothing releases it, with a planner that does
not brake. -/
def AtEntry (s : Controller) (i : Input) : Prop :=
  s.stopIntentLatched = true ∧ i.cc.stopping = false ∧ i.cs.standstill = false ∧
    baseReleaseHoldRequested s i = false ∧ i.cs.vEgo = nearStopEntrySpeed ∧
    -7 / 14800 ≤ i.cc.accel

theorem stop_command_iff (hlong : i.cc.longActive = true) :
    (((longFrame cp s i).phase.crzInfoHoldRequest && !(longFrame cp s i).phase.holdLatched) = true →
      accelToAccelCmd (longFrame cp s i).accel i.cs.vEgo < 0) ↔ ¬ AtEntry s i := by
  rw [stoppingActive_eq hlong]
  cases hst : i.cs.standstill with
  | true =>
    have hentry : ¬ AtEntry s i := by
      rintro ⟨-, -, hmoving, -⟩
      rw [hst] at hmoving
      cases hmoving
    refine ⟨fun _ => hentry, fun _ hstop => ?_⟩
    simp only [Bool.and_eq_true, Bool.not_eq_true', Bool.true_and, decide_eq_false_iff_not]
      at hstop
    obtain ⟨⟨⟨⟨-, hbase⟩, hu⟩, -⟩, hshort⟩ := hstop
    rw [accel_standstill hlong hst (not_window_of_base hbase hu)]
    rw [if_neg (by simp [hshort])]
    exact accelToAccelCmd_neg holdBrakeAccel_lt _
  | false =>
    have hu : unlatches cp s i = false := by
      simp [unlatches, resumeUnlatchRequested, hst]
    have hclamped : accelToAccelCmd (min i.cc.accel (nearStopBrakeAccel i.cs.vEgo)) i.cs.vEgo < 0 :=
      accelToAccelCmd_neg ((min_le_right ..).trans_lt (nearStopBrakeAccel_lt _)) _
    cases hbase : baseReleaseHoldRequested s i with
    | true => simp [AtEntry, hbase]
    | false =>
      rw [accel_moving hlong hst (not_window_of_base hbase hu), hu, hbase]
      cases hstopping : i.cc.stopping with
      | true => simp [AtEntry, hstopping, hclamped]
      | false =>
        cases hlatch : s.stopIntentLatched with
        | false => simp [AtEntry, hlatch]
        | true =>
          rcases lt_trichotomy i.cs.vEgo nearStopEntrySpeed with hv | hv | hv
          · simp [AtEntry, hv, hv.ne, hclamped]
          · simp [AtEntry, hv, hst, hstopping, hlatch, hbase, accelToAccelCmd_entry]
          · simp [AtEntry, hv, hv.ne']

end Stop

/-! ## Runs -/

/-- An emitted frame is not at the entry speed with a latched stop intent, and does not replay an
idle frame of the radar with both stop bits and no brake. -/
def StopSafe (s : Controller) (i : Input) : Prop :=
  s.frame % longCommandStep = 0 →
    if i.cc.longActive then ¬ AtEntry s i else StopBrakes (idleBase i.observedInfo.val)

theorem stopBrakes_frame (vEgoStarting : Rat) (s : Controller) (i : Input) :
    (∀ raw, .crzInfo raw ∈ (update (alphaLong vEgoStarting) s i).2.2 → StopBrakes raw) ↔
      StopSafe s i := by
  have hmem : ∀ raw, .crzInfo raw ∈ (update (alphaLong vEgoStarting) s i).2.2 ↔
      s.frame % longCommandStep = 0 ∧
        raw = buildCrzInfo i.observedInfo.val (longFrame (alphaLong vEgoStarting) s i).accel
          s.longCounter i.cc.longActive
          (longFrame (alphaLong vEgoStarting) s i).phase.crzInfoHoldRequest i.cs.vEgo
          (longFrame (alphaLong vEgoStarting) s i).phase.holdLatched true
          (longFrame (alphaLong vEgoStarting) s i).phase.crzInfoResumeUnlatching := by
    intro raw
    rw [mem_update_sends (.inl ⟨raw, rfl⟩)]
    simp [createLongitudinalMessages]
  unfold StopSafe
  simp only [hmem, and_imp]
  cases hlong : i.cc.longActive with
  | true =>
    rw [if_pos rfl]
    constructor
    · intro h heven
      have hbrakes := h _ heven rfl
      rw [stopBrakes_engaged] at hbrakes
      exact (stop_command_iff hlong).1 hbrakes
    · intro h raw heven hraw
      rw [hraw, stopBrakes_engaged]
      exact (stop_command_iff hlong).2 (h heven)
  | false =>
    rw [if_neg Bool.false_ne_true]
    constructor
    · intro h heven
      have hbrakes := h _ heven rfl
      rwa [stopBrakes_idle] at hbrakes
    · intro h raw heven hraw
      rw [hraw, stopBrakes_idle]
      exact h heven

/-- No CRZ_INFO frame of a run has both stop bits without a braking command if and only if the run
keeps away from a latched stop intent at the entry speed with a planner that does not brake, and
from such idle frames of the radar. -/
theorem stopBits_brake_iff (vEgoStarting : Rat) (es : List Input) :
    (∀ pre i, pre ++ [i] <+: es → ∀ raw,
        .crzInfo raw ∈ (update (alphaLong vEgoStarting)
          (run (step (alphaLong vEgoStarting)) {} pre) i).2.2 → StopBrakes raw) ↔
      AllSteps (step (alphaLong vEgoStarting)) StopSafe {} es := by
  rw [allSteps_iff_forall]
  exact forall_congr' fun pre => forall_congr' fun i => imp_congr_right fun _ =>
    stopBrakes_frame vEgoStarting _ i

/-- A stop that the planner takes back at the entry speed. -/
def stopTakenBack : List Input :=
  let stopping : Input :=
    { cc := { longActive := true, accel := -1, longControlState := .stopping }
      cs := { vEgo := 1 } }
  let crawling : Input :=
    { cc := { longActive := true, accel := 1, longControlState := .pid }
      cs := { vEgo := 1 } }
  [stopping, crawling, crawling]

/-- Stop bits and an acceleration of 1 m/s² in one frame. -/
theorem stopTakenBack_accelerates :
    ¬ ∀ pre i, pre ++ [i] <+: stopTakenBack → ∀ raw,
        .crzInfo raw ∈ (update (alphaLong (1 / 2))
          (run (step (alphaLong (1 / 2))) {} pre) i).2.2 → StopBrakes raw := by
  intro h
  have hlast := (stopBrakes_frame (1 / 2) _ _).1
    (h (stopTakenBack.take 2) (stopTakenBack.getLast (by decide)) ⟨[], rfl⟩)
  refine hlast (by decide +kernel) ⟨by decide +kernel, rfl, rfl, by decide +kernel, rfl, ?_⟩
  decide +kernel

end Longitudinal
end MazdaPort
