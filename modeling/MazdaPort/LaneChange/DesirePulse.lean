import MazdaPort.LaneChange.DesireHelper
import Mathlib.Data.List.GetD

/-!
# MazdaPort.LaneChange.DesirePulse

What `model_thread` of `dashcam_web.py` makes of the desire: `pick_desire` puts turns beside the
lane changes, `DesirePulse` gives the model the last 25 frames, with a pulse where a desire begins.

`pulse_iff`: over any run, the pulses for a lane change that the model sees are at the frames in
which `DesireHelper` started one, and at no others.
-/

namespace MazdaPort
namespace LaneChange

def Desire.ordinal : Desire → Nat
  | .none => 0
  | .turnLeft => 1
  | .turnRight => 2
  | .laneChangeLeft => 3
  | .laneChangeRight => 4

/-- `DESIRE_LEN` -/
def desireLen : Nat := 8

/-- Which entries of a row are one. -/
abbrev Row := Nat → Bool

def blank : Row := fun _ => false

structure DesirePulse where
  hist : List Row
  prev : Row

namespace DesirePulse

def init : DesirePulse := { hist := List.replicate 25 blank, prev := blank }

/-- The one-hot vector; index 0 is never pulsed. -/
def vec (desire : Nat) : Row := fun i =>
  decide (0 < desire ∧ desire < desireLen) && decide (i = desire)

def pulse (s : DesirePulse) (desire : Nat) : Row := fun i => vec desire i && !s.prev i

def step (s : DesirePulse) (desire : Nat) : DesirePulse :=
  { hist := s.hist.tail ++ [s.pulse desire], prev := vec desire }

end DesirePulse

/-- `turnSpeedMax` is `TURN_SPEED_MAX`; `dh` has been updated with the frame. -/
def pickDesire {T : Type} (turnSpeedMax : Rat) (dh : DesireHelper T) (f : Frame) : Desire :=
  if dh.desire ≠ .none then dh.desire
  else if !f.lateralActive then .none
  else if f.carstate.oneBlinker && decide (f.carstate.vEgo < turnSpeedMax) then
    if f.carstate.leftBlinker then .turnLeft else .turnRight
  else .none

/-- `desire` is what `mstate` keeps of it. -/
structure ModelThread (T : Type) where
  dh : DesireHelper T
  pulser : DesirePulse
  desire : Desire

namespace ModelThread

open DesireHelper

variable {T : Type} (cfg : Config) (clock : Clock T) (turnSpeedMax : Rat)

def init : ModelThread T :=
  { dh := DesireHelper.init clock, pulser := .init, desire := .none }

def step (s : ModelThread T) (f : Frame) : ModelThread T :=
  let dh := s.dh.update cfg clock f
  let desire := pickDesire turnSpeedMax dh f
  { dh := dh, pulser := s.pulser.step desire.ordinal, desire := desire }

abbrev run (es : List Frame) : ModelThread T :=
  Run.run (step cfg clock turnSpeedMax) (init clock) es

variable {cfg clock turnSpeedMax}

/-! ## One frame -/

theorem pickDesire_changeTo {dh : DesireHelper T} {f : Frame} {d : LaneChangeDirection}
    (hd : d ≠ .none) : pickDesire turnSpeedMax dh f = changeTo d ↔ dh.desire = changeTo d := by
  have hsome : changeTo d ≠ .none := by cases d <;> simp_all [changeTo]
  have hturn : changeTo d ≠ .turnLeft ∧ changeTo d ≠ .turnRight := by cases d <;> simp [changeTo]
  unfold pickDesire
  split
  · rfl
  · next hnone =>
    have hdh : dh.desire = .none := by simpa using hnone
    rw [hdh]
    constructor
    · intro h
      split at h
      · exact h
      · split at h
        · split at h
          · exact absurd h.symm hturn.1
          · exact absurd h.symm hturn.2
        · exact h
    · intro h
      exact absurd h.symm hsome

/-- The column of the pulses for a change to a side. -/
def column : LaneChangeDirection → Nat
  | .left => 3
  | .right => 4
  | .none => 0

theorem vec_column {d : LaneChangeDirection} (hd : d ≠ .none) (desire : Desire) :
    DesirePulse.vec desire.ordinal (column d) = decide (desire = changeTo d) := by
  cases d with
  | none => exact absurd rfl hd
  | left => cases desire <;> rfl
  | right => cases desire <;> rfl

variable (turnSpeedMax) in
theorem dh_run (es : List Frame) :
    (run cfg clock turnSpeedMax es).dh = DesireHelper.run cfg clock es := by
  induction es using List.reverseRecOn with
  | nil => rfl
  | append_singleton es f ih =>
    rw [run, Run.run_snoc, DesireHelper.run, Run.run_snoc]
    exact congrArg (fun dh => update cfg clock dh f) ih

theorem prev_run (es : List Frame) :
    (run cfg clock turnSpeedMax es).pulser.prev =
      DesirePulse.vec (run cfg clock turnSpeedMax es).desire.ordinal := by
  rcases List.eq_nil_or_concat es with rfl | ⟨es, f, rfl⟩
  · funext i
    rfl
  · rw [List.concat_eq_append, run, Run.run_snoc]
    rfl

variable (turnSpeedMax) in
/-- The desire for a change is there after a run exactly when `DesireHelper` has it. -/
theorem desire_run (es : List Frame) {d : LaneChangeDirection} (hd : d ≠ .none) :
    (run cfg clock turnSpeedMax es).desire = changeTo d ↔
      (DesireHelper.run cfg clock es).desire = changeTo d := by
  rcases List.eq_nil_or_concat es with rfl | ⟨es, f, rfl⟩
  · exact Iff.rfl
  · rw [← dh_run turnSpeedMax, List.concat_eq_append, run, Run.run_snoc]
    exact pickDesire_changeTo hd

/-! ## Where a change begins -/

/-- The frame `f` starts a change to `d` after the frames `before`. -/
structure Begins (cfg : Config) (clock : Clock T) (before : List Frame) (f : Frame)
    (d : LaneChangeDirection) : Prop where
  armed : (DesireHelper.run cfg clock before).laneChangeState = .preLaneChange
  inTime : clock.overMax (DesireHelper.run cfg clock before).laneChangeTimer = false
  active : f.lateralActive = true
  starts : Starts cfg clock (DesireHelper.run cfg clock before) f.carstate
  side : f.carstate.getLaneChangeDirection = d

theorem fromPreLaneChange_starts {cs : CarState} {s : DesireHelper T}
    (h : Starts cfg clock s cs) :
    (fromPreLaneChange cfg clock cs s).laneChangeState = .laneChangeStarting ∧
      (fromPreLaneChange cfg clock cs s).laneChangeDirection = cs.getLaneChangeDirection := by
  have hgo : ((cs.torqueApplied cs.getLaneChangeDirection ||
      (cfg.autoLaneChange && clock.dwelt (dwell clock cs s))) &&
        !cs.blindspotDetected cs.getLaneChangeDirection) = true := by
    rw [h.clear]
    simpa using h.ready
  have hon : ¬ (!cs.oneBlinker || cs.belowLaneChangeSpeed cfg) = true := by
    rw [h.signalled, h.fast]
    decide
  simp only [fromPreLaneChange]
  rw [if_neg hon, if_pos hgo]
  exact ⟨rfl, rfl⟩

theorem begins_desire {before : List Frame} {f : Frame} {d : LaneChangeDirection}
    (hd : d ≠ .none) (h : Begins cfg clock before f d) :
    (DesireHelper.run cfg clock (before ++ [f])).desire = changeTo d ∧
      (DesireHelper.run cfg clock before).desire ≠ changeTo d := by
  constructor
  · have htransition : transition cfg clock f (DesireHelper.run cfg clock before) =
        fromPreLaneChange cfg clock f.carstate (DesireHelper.run cfg clock before) := by
      unfold transition
      rw [h.active, h.inTime, branch_pre h.armed]
      rfl
    obtain ⟨hstate, hdir⟩ := fromPreLaneChange_starts h.starts
    rw [desire_eq, DesireHelper.run, Run.run_snoc]
    have hdesire : desireOf (update cfg clock (DesireHelper.run cfg clock before) f) =
        desireOf (transition cfg clock f (DesireHelper.run cfg clock before)) := rfl
    rw [hdesire, htransition, desireOf, hstate, if_pos rfl, hdir, h.side]
    cases d <;> rfl
  · rw [desire_eq, desireOf, h.armed, if_neg (by decide)]
    cases d with
    | none => exact absurd rfl hd
    | left => decide
    | right => decide

/-- A change is asked for anew in the frames that start one, and in no others. -/
theorem begins_iff {before : List Frame} {f : Frame} {d : LaneChangeDirection} (hd : d ≠ .none) :
    (DesireHelper.run cfg clock (before ++ [f])).desire = changeTo d ∧
        (DesireHelper.run cfg clock before).desire ≠ changeTo d ↔
      Begins cfg clock before f d := by
  constructor
  · rintro ⟨hnow, hbefore⟩
    have hlast : DesireHelper.run cfg clock (before ++ [f]) =
        update cfg clock (DesireHelper.run cfg clock before) f := Run.run_snoc _ _ _ _
    rw [hlast] at hnow
    obtain ⟨hstate, hdir⟩ := update_desire hd hnow
    rw [update_state] at hstate
    rw [update_direction] at hdir
    obtain ⟨hactive, hintime, ⟨hwas, hstarts, hside, -⟩ | ⟨hwas, -, hsame, -⟩⟩ :=
      starting_cases hstate
    · exact ⟨hwas, hintime, hactive, hstarts, hside.symm.trans hdir⟩
    · refine absurd ?_ hbefore
      rw [desire_eq, desireOf, hwas, if_pos rfl, ← hsame, hdir]
      cases d <;> rfl
  · exact begins_desire hd

/-! ## The window -/

variable (cfg clock turnSpeedMax) in
theorem hist_length (es : List Frame) :
    (run cfg clock turnSpeedMax es).pulser.hist.length = 25 := by
  induction es using List.reverseRecOn with
  | nil => rfl
  | append_singleton es f ih =>
    rw [run, Run.run_snoc]
    simp only [step, DesirePulse.step]
    rw [List.length_append, List.length_tail, ih]
    rfl

theorem pulse_snoc (es : List Frame) (f : Frame) {d : LaneChangeDirection} (hd : d ≠ .none) :
    (run cfg clock turnSpeedMax es).pulser.pulse
        (run cfg clock turnSpeedMax (es ++ [f])).desire.ordinal (column d) = true ↔
      Begins cfg clock es f d := by
  rw [← begins_iff hd, ne_eq, ← desire_run turnSpeedMax _ hd,
    ← desire_run turnSpeedMax es hd]
  unfold DesirePulse.pulse
  rw [prev_run, vec_column hd, vec_column hd]
  simp

/-- Row `k` of the window, the last one of which is the newest, has a pulse for a change to `d`
exactly when the change began in the frame that many frames back. -/
theorem pulse_iff (es : List Frame) {d : LaneChangeDirection} (hd : d ≠ .none) {k : Nat}
    (hk : k < 25) :
    (run cfg clock turnSpeedMax es).pulser.hist.getD k blank (column d) = true ↔
      ∃ before f after, es = before ++ f :: after ∧ after.length + k = 24 ∧
        Begins cfg clock before f d := by
  induction es using List.reverseRecOn generalizing k with
  | nil =>
    constructor
    · intro h
      have hblank : (run cfg clock turnSpeedMax []).pulser.hist.getD k blank = blank := by
        have hhist : (run cfg clock turnSpeedMax []).pulser.hist = List.replicate 25 blank := rfl
        rw [hhist, List.getD_eq_getElem?_getD, List.getElem?_replicate, if_pos hk]
        rfl
      rw [hblank] at h
      cases h
    · rintro ⟨before, f, after, heq, -⟩
      simp at heq
  | append_singleton es g ih =>
    have hlen := hist_length cfg clock turnSpeedMax es
    have hhist : (run cfg clock turnSpeedMax (es ++ [g])).pulser.hist =
        (run cfg clock turnSpeedMax es).pulser.hist.tail ++
          [(run cfg clock turnSpeedMax es).pulser.pulse
            (run cfg clock turnSpeedMax (es ++ [g])).desire.ordinal] := by
      rw [run, run, Run.run_snoc]
      rfl
    have htail : (run cfg clock turnSpeedMax es).pulser.hist.tail.length = 24 := by
      rw [List.length_tail, hlen]
    rw [hhist]
    rcases Nat.lt_or_ge k 24 with hlt | hge
    · rw [List.getD_append _ _ _ _ (by omega)]
      have hshift : (run cfg clock turnSpeedMax es).pulser.hist.tail.getD k blank =
          (run cfg clock turnSpeedMax es).pulser.hist.getD (k + 1) blank := by
        simp [List.getD]
      rw [hshift, ih (by omega)]
      constructor
      · rintro ⟨before, f, after, rfl, hafter, hbegins⟩
        refine ⟨before, f, after ++ [g], by simp, ?_, hbegins⟩
        rw [List.length_append, List.length_singleton]
        omega
      · rintro ⟨before, f, after, heq, hafter, hbegins⟩
        rcases List.eq_nil_or_concat after with rfl | ⟨after, x, rfl⟩
        · rw [List.length_nil] at hafter
          omega
        · rw [List.concat_eq_append, ← List.cons_append, ← List.append_assoc] at heq
          obtain ⟨rfl, -⟩ := List.append_inj' heq rfl
          rw [List.concat_eq_append, List.length_append, List.length_singleton] at hafter
          exact ⟨before, f, after, rfl, by omega, hbegins⟩
    · obtain rfl : k = 24 := by omega
      have hnew : ((run cfg clock turnSpeedMax es).pulser.hist.tail ++
          [(run cfg clock turnSpeedMax es).pulser.pulse
            (run cfg clock turnSpeedMax (es ++ [g])).desire.ordinal]).getD 24 blank =
          (run cfg clock turnSpeedMax es).pulser.pulse
            (run cfg clock turnSpeedMax (es ++ [g])).desire.ordinal := by
        rw [List.getD_append_right _ _ _ _ (by omega), htail]
        rfl
      rw [hnew, pulse_snoc es g hd]
      constructor
      · intro h
        exact ⟨es, g, [], rfl, rfl, h⟩
      · rintro ⟨before, f, after, heq, hafter, hbegins⟩
        obtain rfl : after = [] := List.length_eq_zero_iff.1 (by omega)
        obtain ⟨rfl, hcons⟩ := List.append_inj' heq rfl
        cases hcons
        exact hbegins

theorem pulse_iff_nudged :
    ∃ before f after, [signalLeft false, signalLeft true, signalLeft false] =
        before ++ f :: after ∧ after.length + 23 = 24 ∧ Begins nudged frames before f .left := by
  have hpulse : (run nudged frames 8.94
      [signalLeft false, signalLeft true, signalLeft false]).pulser.hist.getD 23 blank
        (column .left) = true := by
    decide +kernel
  exact (pulse_iff _ (by decide) (by decide)).1 hpulse

end ModelThread
end LaneChange
end MazdaPort
