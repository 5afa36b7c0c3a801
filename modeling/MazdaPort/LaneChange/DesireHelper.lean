import MazdaPort.Lib.Run
import Mathlib.Data.Rat.Defs

/-!
# MazdaPort.LaneChange.DesireHelper

`DesireHelper` of `controls/lib/desire_helper.py`, with the lane change that starts without a nudge
and the one that is taken up again.

The timers are floats that grow by a frame at a time. What they are compared with is a parameter,
`Clock`; so are the three thresholds of `Config`.

`desire_consented`: no lane change is asked for unless the driver has signalled it, and then either
nudged the wheel or waited; lateral control has been on all the time, and from the start of the
change on nothing has been in the blind spot on that side. `change_bounded`: none is asked for
longer than `LANE_CHANGE_TIME_MAX` and two frames.
-/

namespace MazdaPort
namespace LaneChange

structure CarState where
  vEgo : Rat
  leftBlinker : Bool
  rightBlinker : Bool
  steeringPressed : Bool
  steeringTorque : Rat
  leftBlindspot : Bool
  rightBlindspot : Bool
  deriving DecidableEq, Repr

structure Frame where
  carstate : CarState
  lateralActive : Bool
  laneChangeProb : Rat
  deriving DecidableEq, Repr

inductive LaneChangeState where
  | off
  | preLaneChange
  | laneChangeStarting
  deriving DecidableEq, Repr

inductive LaneChangeDirection where
  | none
  | left
  | right
  deriving DecidableEq, Repr

inductive Desire where
  | none
  | turnLeft
  | turnRight
  | laneChangeLeft
  | laneChangeRight
  deriving DecidableEq, Repr

structure Config where
  /-- `OP_AUTO_LANE_CHANGE` -/
  autoLaneChange : Bool
  /-- `OP_LC_REARM` -/
  lcRearm : Bool
  /-- `LANE_CHANGE_SPEED_MIN`, 20 mph -/
  laneChangeSpeedMin : Rat
  /-- Below this the model says that it is done, 0.02. -/
  doneProb : Rat

/-- The arithmetic of the timers. -/
structure Clock (T : Type) where
  zero : T
  /-- `+= DT_MDL` -/
  tick : T → T
  /-- `AUTO_LANE_CHANGE_DELAY` -/
  delay : T
  /-- `> 0.0` -/
  positive : T → Bool
  /-- `> LANE_CHANGE_TIME_MAX` -/
  overMax : T → Bool
  /-- `< LANE_CHANGE_TIME_MAX` -/
  underMax : T → Bool
  /-- `>= LANE_CHANGE_START_TIME` -/
  started : T → Bool
  /-- `>= AUTO_LANE_CHANGE_DELAY` -/
  dwelt : T → Bool

structure DesireHelper (T : Type) where
  laneChangeState : LaneChangeState
  laneChangeDirection : LaneChangeDirection
  laneChangeTimer : T
  preLaneChangeTimer : T
  attemptTimer : T
  prevOneBlinker : Bool
  desire : Desire
  deriving DecidableEq, Repr

def CarState.oneBlinker (cs : CarState) : Bool := cs.leftBlinker != cs.rightBlinker

def CarState.belowLaneChangeSpeed (cfg : Config) (cs : CarState) : Bool :=
  decide (cs.vEgo < cfg.laneChangeSpeedMin)

def CarState.getLaneChangeDirection (cs : CarState) : LaneChangeDirection :=
  if cs.leftBlinker then .left else .right

def CarState.blindspotDetected (cs : CarState) (direction : LaneChangeDirection) : Bool :=
  (cs.leftBlindspot && direction == .left) || (cs.rightBlindspot && direction == .right)

def CarState.torqueApplied (cs : CarState) (direction : LaneChangeDirection) : Bool :=
  cs.steeringPressed &&
    ((decide (cs.steeringTorque > 0) && direction == .left) ||
      (decide (cs.steeringTorque < 0) && direction == .right))

namespace DesireHelper

variable {T : Type} (cfg : Config) (clock : Clock T)

def init : DesireHelper T :=
  { laneChangeState := .off
    laneChangeDirection := .none
    laneChangeTimer := clock.zero
    preLaneChangeTimer := clock.zero
    attemptTimer := clock.zero
    prevOneBlinker := false
    desire := .none }

def turnOff (s : DesireHelper T) : DesireHelper T :=
  { s with
    laneChangeState := .off
    laneChangeDirection := .none
    laneChangeTimer := clock.zero
    attemptTimer := clock.zero }

def fromOff (cs : CarState) (s : DesireHelper T) : DesireHelper T :=
  if cs.oneBlinker && !s.prevOneBlinker && !cs.belowLaneChangeSpeed cfg then
    { s with
      laneChangeState := .preLaneChange
      laneChangeTimer := clock.zero
      preLaneChangeTimer := clock.zero
      attemptTimer := clock.zero
      laneChangeDirection := cs.getLaneChangeDirection }
  else s

/-- The dwell, which a car in the blind spot starts anew. -/
def dwell (cs : CarState) (s : DesireHelper T) : T :=
  if cs.blindspotDetected cs.getLaneChangeDirection then clock.zero
  else clock.tick s.preLaneChangeTimer

def fromPreLaneChange (cs : CarState) (s : DesireHelper T) : DesireHelper T :=
  let direction := cs.getLaneChangeDirection
  let blindspotDetected := cs.blindspotDetected direction
  let preLaneChangeTimer := dwell clock cs s
  let autoReady := cfg.autoLaneChange && clock.dwelt preLaneChangeTimer
  let s :=
    { s with
      laneChangeDirection := direction
      preLaneChangeTimer := preLaneChangeTimer
      attemptTimer :=
        if clock.positive s.attemptTimer then clock.tick s.attemptTimer else s.attemptTimer }
  if !cs.oneBlinker || cs.belowLaneChangeSpeed cfg then
    { turnOff clock s with preLaneChangeTimer := clock.zero }
  else if (cs.torqueApplied direction || autoReady) && !blindspotDetected then
    { s with
      laneChangeState := .laneChangeStarting
      laneChangeTimer := clock.zero
      preLaneChangeTimer := clock.zero }
  else s

/-- The model is done: a signal that is still on takes the change up again. -/
def finish (cs : CarState) (s : DesireHelper T) : DesireHelper T :=
  let s := { s with laneChangeTimer := clock.zero }
  if cs.oneBlinker then
    let s :=
      { s with
        laneChangeState := .preLaneChange
        laneChangeDirection := cs.getLaneChangeDirection }
    if cfg.lcRearm && clock.underMax s.attemptTimer then
      { s with preLaneChangeTimer := clock.delay }
    else { s with preLaneChangeTimer := clock.zero, attemptTimer := clock.zero }
  else
    { s with
      laneChangeState := .off
      laneChangeDirection := .none
      attemptTimer := clock.zero }

def fromLaneChangeStarting (cs : CarState) (laneChangeProb : Rat) (s : DesireHelper T) :
    DesireHelper T :=
  let s :=
    { s with
      laneChangeTimer := clock.tick s.laneChangeTimer
      attemptTimer := clock.tick s.attemptTimer }
  if cs.blindspotDetected s.laneChangeDirection then
    { s with
      laneChangeState := .preLaneChange
      laneChangeTimer := clock.zero
      preLaneChangeTimer := clock.zero
      attemptTimer := clock.zero }
  else if decide (laneChangeProb < cfg.doneProb) && clock.started s.laneChangeTimer then
    finish cfg clock cs s
  else s

def branch (f : Frame) (s : DesireHelper T) : DesireHelper T :=
  match s.laneChangeState with
  | .off => fromOff cfg clock f.carstate s
  | .preLaneChange => fromPreLaneChange cfg clock f.carstate s
  | .laneChangeStarting => fromLaneChangeStarting cfg clock f.carstate f.laneChangeProb s

def transition (f : Frame) (s : DesireHelper T) : DesireHelper T :=
  if !f.lateralActive || clock.overMax s.laneChangeTimer then turnOff clock s
  else branch cfg clock f s

def desireOf (s : DesireHelper T) : Desire :=
  if s.laneChangeState = .laneChangeStarting then
    match s.laneChangeDirection with
    | .left => .laneChangeLeft
    | .right => .laneChangeRight
    | .none => .none
  else .none

def update (s : DesireHelper T) (f : Frame) : DesireHelper T :=
  let s := transition cfg clock f s
  { s with
    prevOneBlinker := f.carstate.oneBlinker && f.lateralActive
    desire := desireOf s }

/-! ## One frame -/

variable {cfg clock}

/-- The frame that starts the change to a side. -/
structure Starts (cfg : Config) (clock : Clock T) (s : DesireHelper T) (cs : CarState) : Prop where
  signalled : cs.oneBlinker = true
  fast : cs.belowLaneChangeSpeed cfg = false
  ready : cs.torqueApplied cs.getLaneChangeDirection = true ∨
    cfg.autoLaneChange = true ∧ clock.dwelt (dwell clock cs s) = true
  clear : cs.blindspotDetected cs.getLaneChangeDirection = false

theorem turnOff_off (s : DesireHelper T) : (turnOff clock s).laneChangeState = .off := rfl

theorem update_state (s : DesireHelper T) (f : Frame) :
    (update cfg clock s f).laneChangeState = (transition cfg clock f s).laneChangeState := rfl

theorem update_direction (s : DesireHelper T) (f : Frame) :
    (update cfg clock s f).laneChangeDirection =
      (transition cfg clock f s).laneChangeDirection := rfl

theorem fromPreLaneChange_starting {cs : CarState} {s : DesireHelper T}
    (h : (fromPreLaneChange cfg clock cs s).laneChangeState = .laneChangeStarting)
    (hs : s.laneChangeState = .preLaneChange) :
    Starts cfg clock s cs ∧
      (fromPreLaneChange cfg clock cs s).laneChangeDirection = cs.getLaneChangeDirection ∧
      (fromPreLaneChange cfg clock cs s).laneChangeTimer = clock.zero := by
  unfold fromPreLaneChange at h ⊢
  dsimp only at h ⊢
  split at h
  · cases h
  · next hon =>
    rw [if_neg hon]
    split at h
    · next hgo =>
      rw [if_pos hgo]
      simp only [Bool.or_eq_true, Bool.not_eq_true', not_or, Bool.not_eq_false,
        Bool.not_eq_true] at hon
      simp only [Bool.and_eq_true, Bool.or_eq_true, Bool.not_eq_true'] at hgo
      exact ⟨⟨hon.1, hon.2, hgo.1, hgo.2⟩, rfl, rfl⟩
    · rw [hs] at h
      cases h

theorem fromLaneChangeStarting_starting {cs : CarState} {prob : Rat} {s : DesireHelper T}
    (h : (fromLaneChangeStarting cfg clock cs prob s).laneChangeState = .laneChangeStarting) :
    cs.blindspotDetected s.laneChangeDirection = false ∧
      (fromLaneChangeStarting cfg clock cs prob s).laneChangeDirection = s.laneChangeDirection ∧
      (fromLaneChangeStarting cfg clock cs prob s).laneChangeTimer =
        clock.tick s.laneChangeTimer := by
  unfold fromLaneChangeStarting at h ⊢
  dsimp only at h ⊢
  split at h
  · cases h
  · next hclear =>
    rw [if_neg hclear]
    split at h
    · unfold finish at h
      dsimp only at h
      split at h
      · split at h <;> cases h
      · cases h
    · next hgo =>
      rw [if_neg hgo]
      exact ⟨Bool.not_eq_true _ ▸ hclear, rfl, rfl⟩

theorem branch_off {s : DesireHelper T} {f : Frame} (h : s.laneChangeState = .off) :
    branch cfg clock f s = fromOff cfg clock f.carstate s := by
  unfold branch
  rw [h]

theorem branch_pre {s : DesireHelper T} {f : Frame} (h : s.laneChangeState = .preLaneChange) :
    branch cfg clock f s = fromPreLaneChange cfg clock f.carstate s := by
  unfold branch
  rw [h]

theorem branch_starting {s : DesireHelper T} {f : Frame}
    (h : s.laneChangeState = .laneChangeStarting) :
    branch cfg clock f s =
      fromLaneChangeStarting cfg clock f.carstate f.laneChangeProb s := by
  unfold branch
  rw [h]

theorem transition_active {s : DesireHelper T} {f : Frame}
    (h : (transition cfg clock f s).laneChangeState ≠ .off) :
    f.lateralActive = true ∧ transition cfg clock f s = branch cfg clock f s := by
  unfold transition at h ⊢
  split at h
  · exact absurd (turnOff_off s) h
  · next hon =>
    rw [if_neg hon]
    simp only [Bool.or_eq_true, Bool.not_eq_true', not_or, Bool.not_eq_false] at hon
    exact ⟨hon.1, rfl⟩

theorem transition_inTime {s : DesireHelper T} {f : Frame}
    (h : (transition cfg clock f s).laneChangeState ≠ .off) :
    clock.overMax s.laneChangeTimer = false := by
  unfold transition at h
  split at h
  · exact absurd (turnOff_off s) h
  · next hon =>
    simp only [Bool.or_eq_true, not_or, Bool.not_eq_true] at hon
    exact hon.2

/-- What the frames of a change have behind them: the one that starts it, and one that goes on with
it. -/
theorem starting_cases {s : DesireHelper T} {f : Frame}
    (h : (transition cfg clock f s).laneChangeState = .laneChangeStarting) :
    f.lateralActive = true ∧ clock.overMax s.laneChangeTimer = false ∧
      (s.laneChangeState = .preLaneChange ∧ Starts cfg clock s f.carstate ∧
          (transition cfg clock f s).laneChangeDirection = f.carstate.getLaneChangeDirection ∧
          (transition cfg clock f s).laneChangeTimer = clock.zero ∨
        s.laneChangeState = .laneChangeStarting ∧
          f.carstate.blindspotDetected s.laneChangeDirection = false ∧
          (transition cfg clock f s).laneChangeDirection = s.laneChangeDirection ∧
          (transition cfg clock f s).laneChangeTimer = clock.tick s.laneChangeTimer) := by
  have hne : (transition cfg clock f s).laneChangeState ≠ .off := by
    rw [h]
    decide
  obtain ⟨hactive, hbranch⟩ := transition_active hne
  refine ⟨hactive, transition_inTime hne, ?_⟩
  rw [hbranch] at h ⊢
  cases hstate : s.laneChangeState with
  | off =>
    rw [branch_off hstate] at h
    unfold fromOff at h
    split at h
    · cases h
    · rw [hstate] at h
      cases h
  | preLaneChange =>
    rw [branch_pre hstate] at h ⊢
    exact .inl ⟨rfl, fromPreLaneChange_starting h hstate⟩
  | laneChangeStarting =>
    rw [branch_starting hstate] at h ⊢
    exact .inr ⟨rfl, fromLaneChangeStarting_starting h⟩

/-! ## A run -/

variable (cfg clock) in
abbrev run (es : List Frame) : DesireHelper T := Run.run (update cfg clock) (init clock) es

/-- At `f` exactly one blinker is on and the car is fast enough, and in the frame before that was
not so, or lateral control was off. -/
structure RisingEdge (cfg : Config) (pre : List Frame) (f : Frame) : Prop where
  signalled : f.carstate.oneBlinker = true
  fast : f.carstate.belowLaneChangeSpeed cfg = false
  rising : ∀ x ∈ pre.getLast?, (x.carstate.oneBlinker && x.lateralActive) = false

theorem rising_of_prev {pre : List Frame} (h : (run cfg clock pre).prevOneBlinker = false) :
    ∀ x ∈ pre.getLast?, (x.carstate.oneBlinker && x.lateralActive) = false := by
  intro x hx
  rcases List.eq_nil_or_concat pre with rfl | ⟨pre, y, rfl⟩
  · cases hx
  · rw [List.concat_eq_append] at h hx
    rw [List.getLast?_concat, Option.mem_some_iff] at hx
    rw [run, Run.run_snoc, hx] at h
    exact h

theorem fromOff_armed {f : Frame} {pre : List Frame}
    (hoff : (run cfg clock pre).laneChangeState = .off)
    (h : (fromOff cfg clock f.carstate (run cfg clock pre)).laneChangeState ≠ .off) :
    RisingEdge cfg pre f := by
  unfold fromOff at h
  split at h
  · next hon =>
    simp only [Bool.and_eq_true, Bool.not_eq_true'] at hon
    exact ⟨hon.1.1, hon.2, rising_of_prev hon.1.2⟩
  · exact absurd hoff h

/-- Whatever is not off was armed by a signal, and lateral control has been on since. -/
theorem armed_run (es : List Frame) (h : (run cfg clock es).laneChangeState ≠ .off) :
    ∃ pre e post, es = pre ++ e :: post ∧ RisingEdge cfg pre e ∧
      ∀ x ∈ e :: post, x.lateralActive = true := by
  induction es using List.reverseRecOn with
  | nil => exact absurd rfl h
  | append_singleton es f ih =>
    rw [run, Run.run_snoc, update_state] at h
    obtain ⟨hactive, hbranch⟩ := transition_active h
    cases hstate : (run cfg clock es).laneChangeState with
    | off =>
      rw [hbranch, branch_off hstate] at h
      refine ⟨es, f, [], rfl, fromOff_armed hstate h, fun x hx => ?_⟩
      rw [List.mem_singleton.1 hx]
      exact hactive
    | _ =>
      obtain ⟨pre, e, post, rfl, hedge, hall⟩ := ih (by rw [hstate]; decide)
      refine ⟨pre, e, post ++ [f], by simp, hedge, fun x hx => ?_⟩
      rw [← List.cons_append] at hx
      rcases List.mem_append.1 hx with hx | hx
      · exact hall x hx
      · rw [List.mem_singleton.1 hx]
        exact hactive

/-- A change in progress was started in some frame, and nothing has been in the way since. -/
theorem change_run (es : List Frame)
    (h : (run cfg clock es).laneChangeState = .laneChangeStarting) :
    ∃ pre f post, es = pre ++ f :: post ∧ (run cfg clock pre).laneChangeState = .preLaneChange ∧
      Starts cfg clock (run cfg clock pre) f.carstate ∧
      f.carstate.getLaneChangeDirection = (run cfg clock es).laneChangeDirection ∧
      ∀ x ∈ f :: post, x.lateralActive = true ∧
        x.carstate.blindspotDetected (run cfg clock es).laneChangeDirection = false := by
  induction es using List.reverseRecOn with
  | nil => cases h
  | append_singleton es f ih =>
    have hlast : run cfg clock (es ++ [f]) = update cfg clock (run cfg clock es) f :=
      Run.run_snoc _ _ _ _
    rw [hlast, update_state] at h
    rw [hlast, update_direction]
    obtain ⟨hactive, -, ⟨hstate, hstarts, hdir, -⟩ | ⟨hstate, hclear, hdir, -⟩⟩ := starting_cases h
    · refine ⟨es, f, [], rfl, hstate, hstarts, hdir.symm, fun x hx => ?_⟩
      rw [List.mem_singleton.1 hx, hdir]
      exact ⟨hactive, hstarts.clear⟩
    · obtain ⟨pre, g, post, rfl, hpre, hstarts, hgdir, hall⟩ := ih hstate
      rw [hdir]
      refine ⟨pre, g, post ++ [f], by simp, hpre, hstarts, hgdir, fun x hx => ?_⟩
      rw [← List.cons_append] at hx
      rcases List.mem_append.1 hx with hx | hx
      · exact hall x hx
      · rw [List.mem_singleton.1 hx]
        exact ⟨hactive, hclear⟩

/-- The desire that asks for a change to a side. -/
def changeTo : LaneChangeDirection → Desire
  | .left => .laneChangeLeft
  | .right => .laneChangeRight
  | .none => .none

theorem desireOf_eq {s : DesireHelper T} {d : LaneChangeDirection} (hd : d ≠ .none)
    (h : desireOf s = changeTo d) :
    s.laneChangeState = .laneChangeStarting ∧ s.laneChangeDirection = d := by
  unfold desireOf at h
  split at h
  · next hstate =>
    refine ⟨hstate, ?_⟩
    cases hdir : s.laneChangeDirection <;> cases d <;> simp_all [changeTo]
  · cases d with
    | none => exact absurd rfl hd
    | left => cases h
    | right => cases h

theorem update_desire {s : DesireHelper T} {f : Frame} {d : LaneChangeDirection} (hd : d ≠ .none)
    (h : (update cfg clock s f).desire = changeTo d) :
    (update cfg clock s f).laneChangeState = .laneChangeStarting ∧
      (update cfg clock s f).laneChangeDirection = d := by
  exact desireOf_eq hd h

/-- In any run, if a lane change is asked for after it: at `e` the driver has signalled, lateral
control has been on from then to the end, at `f` the change was started to the side that was
signalled then, with a nudge or after the dwell, and from `f` to the end that side was clear. -/
theorem desire_consented (es : List Frame) {d : LaneChangeDirection} (hd : d ≠ .none)
    (h : (run cfg clock es).desire = changeTo d) :
    ∃ pre e mid f post, es = pre ++ e :: mid ++ f :: post ∧ RisingEdge cfg pre e ∧
      Starts cfg clock (run cfg clock (pre ++ e :: mid)) f.carstate ∧
      f.carstate.getLaneChangeDirection = d ∧
      (∀ x ∈ e :: mid ++ f :: post, x.lateralActive = true) ∧
      ∀ x ∈ f :: post, x.carstate.blindspotDetected d = false := by
  rcases List.eq_nil_or_concat es with rfl | ⟨es, g, rfl⟩
  · cases d with
    | none => exact absurd rfl hd
    | left => cases h
    | right => cases h
  · rw [List.concat_eq_append] at h ⊢
    have hlast : run cfg clock (es ++ [g]) = update cfg clock (run cfg clock es) g :=
      Run.run_snoc _ _ _ _
    rw [hlast] at h
    obtain ⟨hstate, hdir⟩ := update_desire hd h
    rw [← hlast] at hstate hdir
    obtain ⟨pre, f, post, heq, hpre, hstarts, hfdir, hclear⟩ := change_run (es ++ [g]) hstate
    rw [hdir] at hfdir hclear
    obtain ⟨pre', e, mid, rfl, hedge, hactive⟩ := armed_run pre (by rw [hpre]; decide)
    refine ⟨pre', e, mid, f, post, heq, hedge, hstarts, hfdir, fun x hx => ?_,
      fun x hx => (hclear x hx).2⟩
    rcases List.mem_append.1 hx with hx | hx
    · exact hactive x hx
    · exact (hclear x hx).1

/-! ## How long a change lasts -/

theorem desire_eq (es : List Frame) :
    (run cfg clock es).desire = desireOf (run cfg clock es) := by
  rcases List.eq_nil_or_concat es with rfl | ⟨es, f, rfl⟩
  · rfl
  · rw [List.concat_eq_append, run, Run.run_snoc]
    rfl

theorem starting_of_desire {es : List Frame} (h : (run cfg clock es).desire ≠ .none) :
    (run cfg clock es).laneChangeState = .laneChangeStarting := by
  rw [desire_eq, desireOf] at h
  by_contra hno
  rw [if_neg hno] at h
  exact h rfl

/-- A change that has lasted `k + 1` frames has its timer at `k`, and none of the values before that
was too long. -/
theorem timer_run (es : List Frame)
    (h : (run cfg clock es).laneChangeState = .laneChangeStarting) :
    ∃ pre post k, es = pre ++ post ∧ post.length = k + 1 ∧
      (run cfg clock pre).laneChangeState = .preLaneChange ∧
      (run cfg clock es).laneChangeTimer = clock.tick^[k] clock.zero ∧
      ∀ i < k, clock.overMax (clock.tick^[i] clock.zero) = false := by
  induction es using List.reverseRecOn with
  | nil => cases h
  | append_singleton es f ih =>
    have hlast : run cfg clock (es ++ [f]) = update cfg clock (run cfg clock es) f :=
      Run.run_snoc _ _ _ _
    have htimer : (run cfg clock (es ++ [f])).laneChangeTimer =
        (transition cfg clock f (run cfg clock es)).laneChangeTimer := by
      rw [hlast]
      rfl
    rw [hlast, update_state] at h
    obtain ⟨-, hintime, ⟨hstate, -, -, hzero⟩ | ⟨hstate, -, -, htick⟩⟩ := starting_cases h
    · refine ⟨es, [f], 0, rfl, rfl, hstate, ?_, fun i hi => absurd hi (Nat.not_lt_zero i)⟩
      rw [htimer]
      exact hzero
    · obtain ⟨pre, post, k, rfl, hlen, hpre, hk, hbelow⟩ := ih hstate
      refine ⟨pre, post ++ [f], k + 1, by simp, ?_, hpre, ?_, fun i hi => ?_⟩
      · rw [List.length_append, hlen]
        rfl
      · rw [htimer, htick, hk, Function.iterate_succ_apply']
      · rcases Nat.lt_succ_iff_lt_or_eq.1 hi with hi | rfl
        · exact hbelow i hi
        · rw [← hk]
          exact hintime

/-- Where `n` frames are more than `LANE_CHANGE_TIME_MAX`, no desire for a change lasts longer than
`n + 1` frames, whatever the model and the driver do. -/
theorem change_bounded {n : Nat} (hn : clock.overMax (clock.tick^[n] clock.zero) = true)
    (es post : List Frame)
    (h : ∀ p, p <+: post → p ≠ [] → (run cfg clock (es ++ p)).desire ≠ .none) :
    post.length ≤ n + 1 := by
  rcases List.eq_nil_or_concat post with rfl | ⟨front, f, heq⟩
  · exact Nat.zero_le _
  · have hne : post ≠ [] := by
      rw [heq]
      simp
    have hstarting := starting_of_desire (h post (List.prefix_refl post) hne)
    obtain ⟨pre, post', k, hsplit, hlen, hpre, -, hbelow⟩ := timer_run _ hstarting
    have hk : k ≤ n := by
      by_contra hgt
      rw [hbelow n (Nat.not_le.1 hgt)] at hn
      cases hn
    rcases List.append_eq_append_iff.1 hsplit with ⟨a, rfl, hpost⟩ | ⟨c, -, rfl⟩
    · cases a with
      | nil =>
        rw [List.nil_append] at hpost
        rw [hpost, hlen]
        omega
      | cons x a =>
        have hprefix : x :: a <+: post := by
          rw [hpost]
          exact List.prefix_append _ _
        have hbefore := starting_of_desire (h (x :: a) hprefix (List.cons_ne_nil x a))
        rw [hpre] at hbefore
        cases hbefore
    · rw [List.length_append] at hlen
      omega

/-- The timers in frames. -/
def frames : Clock Nat :=
  { zero := 0
    tick := (· + 1)
    delay := 30
    positive := (0 < ·)
    overMax := (200 < ·)
    underMax := (· < 200)
    started := (10 ≤ ·)
    dwelt := (30 ≤ ·) }

def nudged : Config :=
  { autoLaneChange := false, lcRearm := true, laneChangeSpeedMin := 8.94, doneProb := 0.02 }

/-- A frame with the left blinker on, nudged to the left or not. -/
def signalLeft (nudge : Bool) : Frame :=
  { carstate := ⟨20, true, false, nudge, if nudge then 5 else 0, false, true⟩
    lateralActive := true
    laneChangeProb := 1 }

theorem desire_consented_nudged :
    ∃ pre e mid f post, [signalLeft false, signalLeft false, signalLeft true] =
        pre ++ e :: mid ++ f :: post ∧ RisingEdge nudged pre e ∧
      Starts nudged frames (run nudged frames (pre ++ e :: mid)) f.carstate ∧
      f.carstate.getLaneChangeDirection = .left ∧
      (∀ x ∈ e :: mid ++ f :: post, x.lateralActive = true) ∧
      ∀ x ∈ f :: post, x.carstate.blindspotDetected .left = false :=
  desire_consented _ (by decide) (by decide +kernel)

theorem change_bounded_nudged : [signalLeft true, signalLeft false].length ≤ 201 + 1 := by
  have hover : frames.overMax (frames.tick^[201] frames.zero) = true := by decide +kernel
  have hasks : ∀ p, p <+: [signalLeft true, signalLeft false] → p ≠ [] →
      (run nudged frames ([signalLeft false] ++ p)).desire ≠ .none := by
    intro p hp hne
    rw [← List.mem_inits] at hp
    simp only [List.inits, List.map_cons, List.map_nil, List.mem_cons, List.not_mem_nil,
      or_false] at hp
    rcases hp with rfl | rfl | rfl
    · exact absurd rfl hne
    · decide +kernel
    · decide +kernel
  exact change_bounded hover [signalLeft false] _ hasks

end DesireHelper
end LaneChange
end MazdaPort
