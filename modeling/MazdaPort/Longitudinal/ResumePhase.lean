import MazdaPort.Longitudinal.HoldRelease

/-!
# MazdaPort.Longitudinal.ResumePhase

The phases of CRZ_CTRL after a RES out of the passive hold. The stock radar enables ACC again in
the latched hold for eight frames, then shows the stop-go of a resume.

`phaseOrder_never`: the eight frames never come. The RES that starts their counter also releases the
hold, and as long as the release lasts no frame is in a phase of the hold: the frames of the resume
come at once.
-/

namespace MazdaPort
namespace Longitudinal

open Can Run CrzCtrl

/-! ## A frame after a release -/

section Frame

variable {vEgoStarting : Rat} {s : Controller} {i : Input}

/-- The arguments of `build_crz_ctrl` in a frame. -/
def ctrlFlags (cp : CarParams) (s : Controller) (i : Input) : CtrlFlags :=
  { longActive := i.cc.longActive
    leadVisible := i.cc.leadVisible
    holdRequest := (longFrame cp s i).phase.stopGoRequest
    holdLatched := (longFrame cp s i).phase.holdLatched
    crzHoldLatched := (longFrame cp s i).phase.crzHoldLatched
    crzHoldPassive := (longFrame cp s i).phase.crzHoldPassive
    crzResumeActive := (longFrame cp s i).phase.crzCtrlResumeActive }

theorem mem_update_crzCtrl {raw : List UInt8} :
    .crzCtrl raw ∈ (update (alphaLong vEgoStarting) s i).2.2 ↔
      s.frame % longCommandStep = 0 ∧
        raw = buildCrzCtrl i.ctrlMemory (ctrlFlags (alphaLong vEgoStarting) s i) := by
  rw [mem_update_sends (.inr ⟨raw, rfl⟩)]
  simp [createLongitudinalMessages, ctrlFlags]

theorem ctrl_sent (vEgoStarting : Rat) {s : Controller} (i : Input)
    (heven : s.frame % longCommandStep = 0) :
    .crzCtrl (buildCrzCtrl i.ctrlMemory (ctrlFlags (alphaLong vEgoStarting) s i)) ∈
      (update (alphaLong vEgoStarting) s i).2.2 :=
  mem_update_crzCtrl.2 ⟨heven, rfl⟩

theorem longFrame_phase (cp : CarParams) (s : Controller) (i : Input) :
    (longFrame cp s i).phase =
      (phaseStep cp.vEgoStarting (holdStep (ready cp s i) i).1 (holdStep (ready cp s i) i).2 i).2 :=
  rfl

/-- A release ends every phase of the hold at once. -/
theorem not_hold_of_release {cp : CarParams} (hlong : i.cc.longActive = true)
    (hrelease : (baseReleaseHoldRequested s i || unlatches cp s i) = true) :
    ¬ ((ctrlFlags cp s i).crzHoldPassive || (ctrlFlags cp s i).crzHoldLatched) := by
  simp only [ctrlFlags, longFrame_phase]
  rw [holdStep_active hlong]
  simp [phaseStep, hrelease]

theorem base_of_resuming (h : 0 < s.resumeReleaseFrames) : baseReleaseHoldRequested s i = true := by
  simp [baseReleaseHoldRequested, h]

/-- In the resume window CRZ_CTRL is in the active resume while the car is slow. -/
theorem resume_active (hlong : i.cc.longActive = true)
    (hw : resumeWindow (alphaLong vEgoStarting) s i = true) (hslow : i.cs.vEgo < vEgoStarting)
    {raw : List UInt8} (hraw : .crzCtrl raw ∈ (update (alphaLong vEgoStarting) s i).2.2) :
    parseSignal raw radarLeadRelativeDistance = 3 ∧ parseSignal raw accGasMaybe2 = 1 := by
  have hwindow := (resumeWindow_iff hlong).1 hw
  have hpos := releaseFrames_pos.2 hwindow
  have hrelease : (baseReleaseHoldRequested s i || unlatches (alphaLong vEgoStarting) s i) = true := by
    rcases hwindow with hu | hmore
    · rw [hu, Bool.or_true]
    · rw [base_of_resuming (by omega), Bool.true_or]
  have hhold := not_hold_of_release hlong hrelease
  have hactive : (ctrlFlags (alphaLong vEgoStarting) s i).crzResumeActive = true := by
    simp only [ctrlFlags, longFrame_phase]
    rw [holdStep_active hlong]
    have hslow' : i.cs.vEgo < (alphaLong vEgoStarting).vEgoStarting := hslow
    simp [phaseStep, hrelease, hpos, hslow']
  obtain ⟨-, rfl⟩ := mem_update_crzCtrl.1 hraw
  have hdist := @buildCrzCtrl_distance i.ctrlMemory (ctrlFlags (alphaLong vEgoStarting) s i) 3 1
    (by simp [leadPatches, hhold, hactive]) (by omega) (by omega) (by decide)
  exact_mod_cast hdist

end Frame

/-! ## The order of the phases -/

/-- The latched hold with ACC enabled. -/
def LatchedHold (raw : List UInt8) : Prop :=
  parseSignal raw radarLeadRelativeDistance = 4 ∧ parseSignal raw accGasMaybe2 = 0 ∧
    parseSignal raw accActive2 = 1

/-- The active stop-go of a resume. -/
def ActiveResume (raw : List UInt8) : Prop :=
  parseSignal raw radarLeadRelativeDistance = 3 ∧ parseSignal raw accGasMaybe2 = 1

/-- The stock order over the frames from the RES on: eight in the latched hold, the later ones in
the resume until its window ends or the car starts. -/
structure PhaseOrder (vEgoStarting : Rat) (s : Controller) (frames : List Input) : Prop where
  latched : ∀ pre i raw, pre ++ [i] <+: frames → pre.length < crzCtrlResumeReactivateFrames →
    .crzCtrl raw ∈ (update (alphaLong vEgoStarting)
      (run (step (alphaLong vEgoStarting)) s pre) i).2.2 → LatchedHold raw
  resumed : ∀ pre i raw, pre ++ [i] <+: frames → crzCtrlResumeReactivateFrames ≤ pre.length →
    resumeWindow (alphaLong vEgoStarting) (run (step (alphaLong vEgoStarting)) s pre) i = true →
    i.cs.vEgo < vEgoStarting →
    .crzCtrl raw ∈ (update (alphaLong vEgoStarting)
      (run (step (alphaLong vEgoStarting)) s pre) i).2.2 → ActiveResume raw

/-- After the frames `es` the passive hold has been reached, `res` brings a RES unlatch that was not
there before, and `longActive` and the standstill go on through the eight frames and those after
them. -/
structure PassiveResume (vEgoStarting : Rat) (es : List Input) (res : Input) (later : List Input) :
    Prop where
  passive : crzCtrlPassiveFrames ≤
    (run (step (alphaLong vEgoStarting)) {} es).standstillHoldFrames
  unlatch : unlatches (alphaLong vEgoStarting) (run (step (alphaLong vEgoStarting)) {} es) res = true
  rising : (run (step (alphaLong vEgoStarting)) {} es).resumeButtonPrev = false
  unreleased : released res = false
  length : crzCtrlResumeReactivateFrames ≤ (res :: later).length
  held : ∀ i ∈ res :: later, i.cc.longActive = true ∧ i.cs.standstill = true

section Order

variable {vEgoStarting : Rat} {s : Controller} {i : Input}

theorem crzCtrlResumeReactivateFrames_eq : crzCtrlResumeReactivateFrames = 8 := by decide +kernel

/-- A frame of a release is not in the latched hold. -/
theorem not_latched_of_release (hlong : i.cc.longActive = true)
    (hrelease : (baseReleaseHoldRequested s i || unlatches (alphaLong vEgoStarting) s i) = true) :
    ¬ LatchedHold (buildCrzCtrl i.ctrlMemory (ctrlFlags (alphaLong vEgoStarting) s i)) := by
  rintro ⟨hfour, -⟩
  exact distance_ne_four i.ctrlMemory hlong (not_hold_of_release hlong hrelease) hfour

/-- Every second frame sends CRZ_CTRL. -/
theorem even_frame (vEgoStarting : Rat) (s : Controller) (i : Input) :
    s.frame % longCommandStep = 0 ∨
      (step (alphaLong vEgoStarting) s i).frame % longCommandStep = 0 := by
  have htwo : longCommandStep = 2 := rfl
  rw [step_frame, htwo]
  omega

/-- The resume counter falls by one a frame at most. -/
theorem resuming_run {k : Nat} {pre : List Input} (hlong : ∀ i ∈ pre, i.cc.longActive = true)
    (h : k + pre.length < s.resumeReleaseFrames) (hlen : k + pre.length ≤ resumeReleaseFrames) :
    k < (run (step (alphaLong vEgoStarting)) s pre).resumeReleaseFrames := by
  induction pre generalizing s with
  | nil => exact h
  | cons i pre ih =>
    rw [run_cons]
    simp only [List.length_cons] at h hlen
    refine ih (fun j hj => hlong j (List.mem_cons_of_mem _ hj)) ?_ (by omega)
    rw [step_resumeReleaseFrames, if_pos (hlong i (List.mem_cons_self ..))]
    split <;> omega

/-- For half a second after the RES no frame is in the latched hold. -/
theorem not_latched_after {frames : List Input} (hlong : ∀ j ∈ i :: frames, j.cc.longActive = true)
    (hunlatch : unlatches (alphaLong vEgoStarting) s i = true) {pre : List Input} {j : Input}
    (hpre : pre ++ [j] <+: i :: frames) (hlen : pre.length ≤ resumeReleaseFrames) {raw : List UInt8}
    (hraw : .crzCtrl raw ∈ (update (alphaLong vEgoStarting)
      (run (step (alphaLong vEgoStarting)) s pre) j).2.2) : ¬ LatchedHold raw := by
  obtain ⟨-, rfl⟩ := mem_update_crzCtrl.1 hraw
  have hj : j.cc.longActive = true := hlong j (hpre.subset (by simp))
  refine not_latched_of_release hj ?_
  match pre, hpre, hlen with
  | [], hpre, _ =>
    obtain ⟨rfl, -⟩ := List.cons_prefix_cons.1 hpre
    rw [run_nil, hunlatch, Bool.or_true]
  | e :: pre, hpre, hlen =>
    obtain ⟨rfl, hrest⟩ := List.cons_prefix_cons.1 hpre
    have hstart : (step (alphaLong vEgoStarting) s e).resumeReleaseFrames = resumeReleaseFrames := by
      rw [step_resumeReleaseFrames, if_pos (hlong e (List.mem_cons_self ..)), if_pos hunlatch]
    have hmore : 0 < (run (step (alphaLong vEgoStarting))
        (step (alphaLong vEgoStarting) s e) pre).resumeReleaseFrames := by
      simp only [List.length_cons] at hlen
      refine resuming_run (fun x hx => hlong x ?_) (by omega) (by omega)
      exact List.mem_cons_of_mem _ (hrest.subset (List.mem_append_left _ hx))
    rw [run_cons]
    rw [base_of_resuming hmore, Bool.true_or]

end Order

theorem not_phaseOrder {vEgoStarting : Rat} {es : List Input} {res : Input} {later : List Input}
    (h : PassiveResume vEgoStarting es res later) :
    ¬ PhaseOrder vEgoStarting (run (step (alphaLong vEgoStarting)) {} es) (res :: later) := by
  intro horder
  have height := crzCtrlResumeReactivateFrames_eq
  have hfifty := resumeReleaseFrames_eq
  have hnone : ∀ pre i raw, pre ++ [i] <+: res :: later → pre.length ≤ resumeReleaseFrames →
      .crzCtrl raw ∈ (update (alphaLong vEgoStarting)
        (run (step (alphaLong vEgoStarting)) (run (step (alphaLong vEgoStarting)) {} es) pre)
        i).2.2 → ¬ LatchedHold raw := fun pre i raw hpre hlen hraw =>
    not_latched_after (fun j hj => (h.held j hj).1) h.unlatch hpre hlen hraw
  cases later with
  | nil => exact absurd h.length (by simp [height])
  | cons next later =>
    -- One of the first two frames is sent.
    rcases even_frame vEgoStarting (run (step (alphaLong vEgoStarting)) {} es) res with
      heven | heven
    · have hsend := ctrl_sent vEgoStarting res heven
      exact hnone [] res _ ⟨_, rfl⟩ (by simp) hsend
        (horder.latched [] res _ ⟨_, rfl⟩ (by simp [height]) hsend)
    · have hsend := ctrl_sent vEgoStarting next heven
      exact hnone [res] next _ ⟨_, rfl⟩ (by simp [hfifty]) hsend
        (horder.latched [res] next _ ⟨_, rfl⟩ (by simp [height]) hsend)

/-- A RES out of the passive hold never replays the stock order of the phases: no CRZ_CTRL frame of
the next half second is in the latched hold. The frames of the slow car are in the resume from the
first one on, for as long as its window lasts. -/
theorem phaseOrder_never (vEgoStarting : Rat) (es : List Input) (res : Input) (later : List Input)
    (h : PassiveResume vEgoStarting es res later) :
    ¬ PhaseOrder vEgoStarting (run (step (alphaLong vEgoStarting)) {} es) (res :: later) ∧
      ∀ pre i raw, pre ++ [i] <+: res :: later →
        let s := run (step (alphaLong vEgoStarting)) (run (step (alphaLong vEgoStarting)) {} es) pre
        .crzCtrl raw ∈ (update (alphaLong vEgoStarting) s i).2.2 →
          (pre.length ≤ resumeReleaseFrames → ¬ LatchedHold raw) ∧
            (resumeWindow (alphaLong vEgoStarting) s i = true → i.cs.vEgo < vEgoStarting →
              ActiveResume raw) := by
  have hlong : ∀ i ∈ res :: later, i.cc.longActive = true := fun i hi => (h.held i hi).1
  refine ⟨not_phaseOrder h, ?_⟩
  intro pre i raw hpre s hraw
  constructor
  · intro hlen
    exact not_latched_after hlong h.unlatch hpre hlen hraw
  · intro hw hslow
    have hi : i.cc.longActive = true := hlong i (hpre.subset (by simp))
    exact resume_active hi hw hslow hraw

/-! ## A stop with a RES -/

/-- The car stands and the planner is stopping. -/
def standing : Input :=
  { cc := { longActive := true, longControlState := .stopping }
    cs := { standstill := true } }

/-- The driver presses RES on the wheel. -/
def resPressed : Input :=
  { cc := { longActive := true, longControlState := .stopping }
    cs := { standstill := true, accelButton := true } }

theorem standing_run (n : Nat) :
    (run (step (alphaLong (1 / 2))) {} (List.replicate n standing)).standstillHoldFrames = n ∧
      (run (step (alphaLong (1 / 2))) {} (List.replicate n standing)).resumeReleaseFrames = 0 ∧
      (run (step (alphaLong (1 / 2))) {} (List.replicate n standing)).resumeButtonPrev = false := by
  induction n with
  | zero => exact ⟨rfl, rfl, rfl⟩
  | succ n ih =>
    obtain ⟨hhold, hrelease, -⟩ := ih
    have hbase : baseReleaseHoldRequested
        (run (step (alphaLong (1 / 2))) {} (List.replicate n standing)) standing = false := by
      rw [baseReleaseHoldRequested, hrelease]
      rfl
    have hunlatch : unlatches (alphaLong (1 / 2))
        (run (step (alphaLong (1 / 2))) {} (List.replicate n standing)) standing = false := by
      simp [unlatches, resumeUnlatchRequested, standing]
    have hholding : holding (run (step (alphaLong (1 / 2))) {} (List.replicate n standing))
        standing = true := by
      simp only [holding, hbase]
      rfl
    rw [List.replicate_succ', run_snoc]
    refine ⟨?_, ?_, ?_⟩
    · rw [step_standstillHoldFrames, if_pos hholding, hhold]
    · rw [step_resumeReleaseFrames, hunlatch, hrelease]
      rfl
    · rw [step_resumeButtonPrev, hunlatch]
      rfl

theorem resPressed_passive {n : Nat} (hn : crzCtrlPassiveFrames ≤ n) :
    PassiveResume (1 / 2) (List.replicate n standing) resPressed (List.replicate 7 resPressed) := by
  obtain ⟨hhold, hrelease, hrising⟩ := standing_run n
  refine ⟨by rwa [hhold], ?_, hrising, rfl, ?_, ?_⟩
  · have hpassive : holdRequestFrames < crzCtrlPassiveFrames := by decide +kernel
    have hready : holdRequestFrames < n := by omega
    simp only [unlatches, resumeUnlatchRequested, ready_standstillHoldFrames, hhold, gt_iff_lt,
      hready, decide_true]
    rfl
  · rw [crzCtrlResumeReactivateFrames_eq]
    rfl
  · intro i hi
    obtain rfl : i = resPressed := by simpa using hi
    exact ⟨rfl, rfl⟩

theorem crzCtrlPassiveFrames_le : crzCtrlPassiveFrames ≤ 961 := by decide +kernel

theorem resPressed_never :
    ¬ PhaseOrder (1 / 2) (run (step (alphaLong (1 / 2))) {} (List.replicate 961 standing))
      (resPressed :: List.replicate 7 resPressed) :=
  (phaseOrder_never (1 / 2) _ _ _ (resPressed_passive crzCtrlPassiveFrames_le)).1

/-- The stock order does not come after a RES out of the passive hold. -/
theorem resPressed_disorder :
    ¬ ∀ es res later, PassiveResume (1 / 2) es res later →
      PhaseOrder (1 / 2) (run (step (alphaLong (1 / 2))) {} es) (res :: later) := by
  intro h
  have hpassive := resPressed_passive crzCtrlPassiveFrames_le
  exact not_phaseOrder hpassive (h _ _ _ hpassive)

end Longitudinal
end MazdaPort
