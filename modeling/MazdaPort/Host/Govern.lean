import MazdaPort.Lib.Run
import MazdaPort.Lib.Slew
import Mathlib.Tactic.Linarith
import Mathlib.Algebra.Order.Field.Basic
import Mathlib.Tactic.NormNum

/-!
# MazdaPort.Host.Govern

`govern_accel` of `dashcam_web.py`, with its five clamps in the order of the source.

`governAccel_eq`: with the lead rule off they are one ceiling followed by the jerk limit. From it
`governAccel_refines`: calls with the speed above the cap bring the command down to zero at the rate
of the jerk limit, and inside the coast band the cap never asks for a brake.
-/

namespace MazdaPort
namespace Host

open Slew

/-! ## Constants -/

/-- The constants of the governor that the environment may set. -/
structure Governor where
  accelMaxCmd : Rat
  accelScale : Rat
  jerkMaxCmd : Rat
  vTaperKph : Rat
  vMaxKph : Rat
  tFollowMin : Rat
  leadDecelMax : Rat
  vCapGain : Rat
  vCapDecelMax : Rat
  vCoastBandKph : Rat
  accelMaxCmd_nonneg : 0 ≤ accelMaxCmd
  accelScale_nonneg : 0 ≤ accelScale
  jerkMaxCmd_pos : 0 < jerkMaxCmd
  vTaperKph_pos : 0 < vTaperKph
  vCapGain_nonneg : 0 ≤ vCapGain
  vCapDecelMax_nonneg : 0 ≤ vCapDecelMax
  vCoastBandKph_nonneg : 0 ≤ vCoastBandKph

/-- The defaults. -/
def governor : Governor where
  accelMaxCmd := 9 / 10
  accelScale := 55 / 100
  jerkMaxCmd := 2
  vTaperKph := 10
  vMaxKph := 72 * (1609344 / 1000000)
  tFollowMin := 0
  leadDecelMax := 15 / 10
  vCapGain := 1 / 10
  vCapDecelMax := 1
  vCoastBandKph := 5 * (1609344 / 1000000)
  accelMaxCmd_nonneg := by norm_num
  accelScale_nonneg := by norm_num
  jerkMaxCmd_pos := by norm_num
  vTaperKph_pos := by norm_num
  vCapGain_nonneg := by norm_num
  vCapDecelMax_nonneg := by norm_num
  vCoastBandKph_nonneg := by norm_num

def accelMaxBp : List Rat := [0, 10, 25, 40]

def accelMaxV : List Rat := [16 / 10, 12 / 10, 8 / 10, 6 / 10]

/-! ## The function -/

/-- The loop of `_max_accel_for`, over the breakpoints with their values. -/
def baseLoop (v last : Rat) : List (Rat × Rat) → Rat
  | (x0, y0) :: (x1, y1) :: rest =>
    if v ≤ x1 then y0 + (y1 - y0) * (v - x0) / (x1 - x0) else baseLoop v last ((x1, y1) :: rest)
  | _ => last

def maxAccelFor (g : Governor) (vEgo : Rat) : Rat :=
  let v := max 0 vEgo
  let last := accelMaxV.getLastD 0
  let base :=
    if v ≤ accelMaxBp.headD 0 then accelMaxV.headD 0
    else if v ≥ accelMaxBp.getLastD 0 then last
    else baseLoop v last (accelMaxBp.zip accelMaxV)
  min g.accelMaxCmd (base * g.accelScale)

/-- The texts that `govern_accel` returns beside the command, with the numbers in them. -/
inductive Why where
  | none
  | lead (gap : Rat)
  | overspeed (brakeAt excess : Rat)
  | coast (excess : Rat)
  | approach (cap : Rat)
  | accelCap (amax : Rat)
  | jerk
  deriving DecidableEq, Repr

/-- `why or other`. -/
def Why.or : Why → Why → Why
  | .none, other => other
  | why, _ => why

def vKph (vEgo : Rat) : Rat := vEgo * (36 / 10)

/-- `_cap`. -/
def Governor.cap (g : Governor) : Option Rat → Rat
  | none => g.vMaxKph
  | some vMaxKph => min vMaxKph g.vMaxKph

/-- `_brake_at`. -/
def Governor.brakeAt (g : Governor) : Option Rat → Rat
  | none => g.cap none
  | some vMaxKph => min (g.cap (some vMaxKph) + g.vCoastBandKph) g.vMaxKph

/-- The arguments of a call, apart from `a_prev`. -/
structure Call where
  aModel : Rat
  vEgo : Rat
  leadD : Option Rat := none
  leadProb : Option Rat := none
  dt : Rat
  vMaxKph : Option Rat := none

/-- Step 1, the geometric lead rule. -/
def leadStep (g : Governor) (c : Call) : Rat × Why :=
  match c.leadProb, c.leadD with
  | some leadProb, some leadD =>
    if 0 < g.tFollowMin ∧ 1 / 2 < leadProb ∧ 1 < c.vEgo then
      let gap := leadD / max c.vEgo (1 / 10)
      if gap < g.tFollowMin then
        let frac := min 1 ((g.tFollowMin - gap) / max (g.tFollowMin * (1 / 2)) (1 / 1000))
        (min c.aModel (-g.leadDecelMax * frac), .lead gap)
      else (c.aModel, .none)
    else (c.aModel, .none)
  | _, _ => (c.aModel, .none)

/-- Steps 2 and 2b, the speed cap and the coast band. -/
def capStep (g : Governor) (c : Call) (a : Rat × Why) : Rat × Why :=
  if vKph c.vEgo > g.brakeAt c.vMaxKph then
    let excess := vKph c.vEgo - g.brakeAt c.vMaxKph
    (min a.1 (-(min g.vCapDecelMax (g.vCapGain * excess))),
      a.2.or (.overspeed (g.brakeAt c.vMaxKph) excess))
  else if vKph c.vEgo > g.cap c.vMaxKph then
    (min a.1 0, a.2.or (.coast (vKph c.vEgo - g.cap c.vMaxKph)))
  else a

/-- Steps 3 and 3b, the ceiling and its taper below the cap. -/
def ceilingStep (g : Governor) (c : Call) (a : Rat × Why) : Rat × Why :=
  let amax := maxAccelFor g c.vEgo
  let head := g.cap c.vMaxKph - vKph c.vEgo
  let amax := if head < g.vTaperKph then min amax (amax * max 0 head / g.vTaperKph) else amax
  let why :=
    if head < g.vTaperKph ∧ a.1 > amax then a.2.or (.approach (g.cap c.vMaxKph)) else a.2
  if a.1 > amax then (amax, why.or (.accelCap amax)) else (a.1, why)

def Governor.da (g : Governor) (dt : Rat) : Rat := g.jerkMaxCmd * max dt (1 / 1000)

/-- Step 4, the jerk limit. -/
def jerkStep (g : Governor) (aPrev dt : Rat) (a : Rat × Why) : Rat × Why :=
  let da := g.da dt
  if a.1 > aPrev + da then (aPrev + da, a.2.or .jerk)
  else if a.1 < aPrev - da then (aPrev - da, a.2.or .jerk)
  else a

def governAccel (g : Governor) (aPrev : Rat) (c : Call) : Rat × Why :=
  jerkStep g aPrev c.dt (ceilingStep g c (capStep g c (leadStep g c)))

/-! ## The ceiling -/

/-- What the governor lets the model ask for at most: the speed ceiling, tapered off below the cap,
nothing in the coast band, a brake above it. -/
def Governor.ceiling (g : Governor) (vEgo : Rat) (vMaxKph : Option Rat) : Rat :=
  if g.brakeAt vMaxKph < vKph vEgo then
    -(min g.vCapDecelMax (g.vCapGain * (vKph vEgo - g.brakeAt vMaxKph)))
  else if g.cap vMaxKph < vKph vEgo then 0
  else maxAccelFor g vEgo * min 1 ((g.cap vMaxKph - vKph vEgo) / g.vTaperKph)

section Ceiling

variable (g : Governor)

/-- What holds of the values of a table, and between two of them, holds of what is read off it. -/
theorem baseLoop_of_points {P : Rat → Prop} {v last : Rat}
    (hP : ∀ {x0 y0 x1 y1 : Rat}, x0 < x1 → x0 ≤ v → v ≤ x1 → P y0 → P y1 →
      P (y0 + (y1 - y0) * ((v - x0) / (x1 - x0))))
    (hlast : P last) {points : List (Rat × Rat)} (hx : points.Pairwise fun p q => p.1 < q.1)
    (hy : ∀ p ∈ points, P p.2) (hv : ∀ p ∈ points.head?, p.1 ≤ v) :
    P (baseLoop v last points) := by
  fun_induction baseLoop v last points with
  | case1 x0 y0 x1 y1 rest hle =>
    have hx01 : x0 < x1 := (List.pairwise_cons.1 hx).1 _ (List.mem_cons_self ..)
    have h0 : P y0 := hy _ (List.mem_cons_self ..)
    have h1 : P y1 := hy _ (List.mem_cons_of_mem _ (List.mem_cons_self ..))
    rw [mul_div_assoc]
    exact hP hx01 (hv _ rfl) hle h0 h1
  | case2 x0 y0 x1 y1 rest hgt ih =>
    refine ih (List.pairwise_cons.1 hx).2 (fun p hp => hy p (List.mem_cons_of_mem _ hp)) ?_
    intro p hp
    cases hp
    exact le_of_not_ge hgt
  | case3 points hshort => exact hlast

theorem baseLoop_nonneg {v last : Rat} (hlast : 0 ≤ last) {points : List (Rat × Rat)}
    (hx : points.Pairwise fun p q => p.1 < q.1) (hy : ∀ p ∈ points, 0 ≤ p.2)
    (hv : ∀ p ∈ points.head?, p.1 ≤ v) : 0 ≤ baseLoop v last points :=
  baseLoop_of_points (P := fun y => 0 ≤ y) le_interp hlast hx hy hv

theorem maxAccelFor_nonneg (vEgo : Rat) : 0 ≤ maxAccelFor g vEgo := by
  refine le_min g.accelMaxCmd_nonneg (mul_nonneg ?_ g.accelScale_nonneg)
  split
  · decide +kernel
  · split
    · decide +kernel
    · refine baseLoop_nonneg (by decide +kernel) (by decide +kernel) (by decide +kernel) ?_
      intro p hp
      cases hp
      exact le_max_left ..

theorem cap_le_brakeAt (vMaxKph : Option Rat) : g.cap vMaxKph ≤ g.brakeAt vMaxKph := by
  cases vMaxKph with
  | none => exact le_refl _
  | some v => exact le_min (by linarith [g.vCoastBandKph_nonneg]) (min_le_right ..)

theorem leadStep_off (hoff : g.tFollowMin = 0) (c : Call) : leadStep g c = (c.aModel, .none) := by
  unfold leadStep
  rw [hoff]
  split
  · rw [if_neg fun h => lt_irrefl _ h.1]
  · rfl

/-- The tapered ceiling in one expression. -/
theorem taper_eq (vEgo : Rat) (vMaxKph : Option Rat) :
    (if g.cap vMaxKph - vKph vEgo < g.vTaperKph then
        min (maxAccelFor g vEgo)
          (maxAccelFor g vEgo * max 0 (g.cap vMaxKph - vKph vEgo) / g.vTaperKph)
      else maxAccelFor g vEgo) =
      maxAccelFor g vEgo * min 1 (max 0 (g.cap vMaxKph - vKph vEgo) / g.vTaperKph) := by
  have hmax := maxAccelFor_nonneg g vEgo
  have htaper := g.vTaperKph_pos
  split
  · rw [mul_min_of_nonneg 1 _ hmax, mul_one, mul_div_assoc]
  · next hfar =>
    have hone : 1 ≤ max 0 (g.cap vMaxKph - vKph vEgo) / g.vTaperKph := by
      rw [le_div_iff₀ htaper, one_mul]
      exact le_max_of_le_right (not_lt.1 hfar)
    rw [min_eq_left hone, mul_one]

theorem ceilingStep_fst (c : Call) (a : Rat × Why) :
    (ceilingStep g c a).1 =
      min a.1 (maxAccelFor g c.vEgo *
        min 1 (max 0 (g.cap c.vMaxKph - vKph c.vEgo) / g.vTaperKph)) := by
  rw [← taper_eq]
  unfold ceilingStep
  dsimp only
  generalize (if g.cap c.vMaxKph - vKph c.vEgo < g.vTaperKph then _ else _) = amax
  split
  · next habove => rw [min_eq_right habove.le]
  · next hbelow => rw [min_eq_left (not_lt.1 hbelow)]

/-- The cap and the ceiling together. -/
theorem clamps_eq (c : Call) (a : Rat × Why) :
    (ceilingStep g c (capStep g c a)).1 = min a.1 (g.ceiling c.vEgo c.vMaxKph) := by
  have hcap := cap_le_brakeAt g c.vMaxKph
  rw [ceilingStep_fst]
  unfold capStep Governor.ceiling
  split
  · next hover =>
    -- Above the cap the taper leaves nothing of the ceiling, and the brake is below that.
    have hhead : max 0 (g.cap c.vMaxKph - vKph c.vEgo) = 0 := max_eq_left (by linarith)
    have hbrake : 0 ≤ min g.vCapDecelMax
        (g.vCapGain * (vKph c.vEgo - g.brakeAt c.vMaxKph)) :=
      le_min g.vCapDecelMax_nonneg (mul_nonneg g.vCapGain_nonneg (by linarith))
    rw [hhead, zero_div, min_eq_right zero_le_one, mul_zero]
    exact min_eq_left ((min_le_right ..).trans (by linarith))
  · split
    · next hband =>
      have hhead : max 0 (g.cap c.vMaxKph - vKph c.vEgo) = 0 := max_eq_left (by linarith)
      rw [hhead, zero_div, min_eq_right zero_le_one, mul_zero, min_assoc, min_self]
    · next hbelow =>
      rw [max_eq_right (by linarith)]

theorem da_nonneg (dt : Rat) : 0 ≤ g.da dt :=
  mul_nonneg g.jerkMaxCmd_pos.le (le_max_of_le_right (by norm_num))

theorem jerkStep_fst (aPrev dt : Rat) (a : Rat × Why) :
    (jerkStep g aPrev dt a).1 = slew aPrev (g.da dt) a.1 := by
  rw [slew_eq_ite (da_nonneg g dt)]
  unfold jerkStep
  dsimp only
  split
  · rfl
  · split <;> rfl

/-- With the lead rule off the five clamps are the ceiling and the jerk limit. -/
theorem governAccel_eq (hoff : g.tFollowMin = 0) (aPrev : Rat) (c : Call) :
    (governAccel g aPrev c).1 =
      slew aPrev (g.da c.dt) (min c.aModel (g.ceiling c.vEgo c.vMaxKph)) := by
  rw [governAccel, jerkStep_fst, clamps_eq, leadStep_off g hoff]

end Ceiling

/-! ## Runs of calls -/

/-- The caller keeps the command as `a_prev` of the next call. -/
def govern (g : Governor) (aPrev : Rat) (c : Call) : Rat := (governAccel g aPrev c).1

section Runs

variable (g : Governor)

/-- What a call comes to, without the lead rule. -/
def move (c : Call) : Move Rat :=
  { amount := g.da c.dt, target := min c.aModel (g.ceiling c.vEgo c.vMaxKph) }

theorem run_govern (hoff : g.tFollowMin = 0) (start : Rat) (calls : List Call) :
    Run.run (govern g) start calls = slewRun start (calls.map (move g)) := by
  induction calls generalizing start with
  | nil => rfl
  | cons c calls ih =>
    have hcall : govern g start c = slew start (move g c).amount (move g c).target :=
      governAccel_eq g hoff start c
    rw [Run.run_cons, ih, hcall, List.map_cons, slewRun_cons]

theorem ceiling_above {vEgo : Rat} {vMaxKph : Option Rat} (h : g.cap vMaxKph < vKph vEgo) :
    g.ceiling vEgo vMaxKph ≤ 0 := by
  unfold Governor.ceiling
  split
  · next hover =>
    refine neg_nonpos.2 (le_min g.vCapDecelMax_nonneg (mul_nonneg g.vCapGain_nonneg ?_))
    linarith
  · exact le_refl _

theorem ceiling_band {vEgo : Rat} {vMaxKph : Option Rat} (h : g.cap vMaxKph < vKph vEgo)
    (hband : vKph vEgo ≤ g.brakeAt vMaxKph) : g.ceiling vEgo vMaxKph = 0 := by
  rw [Governor.ceiling, if_neg (not_lt.2 hband), if_pos h]

/-- The speed is above the cap. -/
def AboveCap (c : Call) : Prop := g.cap c.vMaxKph < vKph c.vEgo

/-- The speed is above the cap and not above where the cap brakes. -/
def InBand (c : Call) : Prop := AboveCap g c ∧ vKph c.vEgo ≤ g.brakeAt c.vMaxKph

/-- Above the cap the command ramps down to zero. -/
theorem run_govern_le (hoff : g.tFollowMin = 0) {calls : List Call}
    (habove : ∀ c ∈ calls, AboveCap g c) (start : Rat) :
    Run.run (govern g) start calls ≤ max 0 (start - (calls.map fun c => g.da c.dt).sum) := by
  have hsum : (calls.map fun c => g.da c.dt).sum = ((calls.map (move g)).map Move.amount).sum := by
    rw [List.map_map]
    rfl
  rw [run_govern g hoff, hsum]
  refine slewRun_le ?_ ?_ start
  · intro m hm
    obtain ⟨c, -, rfl⟩ := List.mem_map.1 hm
    exact da_nonneg g c.dt
  · intro m hm
    obtain ⟨c, hc, rfl⟩ := List.mem_map.1 hm
    exact (min_le_right ..).trans (ceiling_above g (habove c hc))

/-- In the coast band the command falls below zero for the model or for where it came from. -/
theorem le_run_govern (hoff : g.tFollowMin = 0) {calls : List Call}
    (hband : ∀ c ∈ calls, InBand g c) {b start : Rat} (hb : b ≤ 0) (hstart : b ≤ start)
    (hmodel : ∀ c ∈ calls, b ≤ c.aModel) : b ≤ Run.run (govern g) start calls := by
  rw [run_govern g hoff]
  refine le_slewRun ?_ ?_ hstart
  · intro m hm
    obtain ⟨c, -, rfl⟩ := List.mem_map.1 hm
    exact da_nonneg g c.dt
  · intro m hm
    obtain ⟨c, hc, rfl⟩ := List.mem_map.1 hm
    refine le_min (hmodel c hc) ?_
    rw [ceiling_band g (hband c hc).1 (hband c hc).2]
    exact hb

end Runs

/-- `govern_accel` refines the ceiling with the jerk limit. Above the cap it is at zero or below once
the ramp from the start is over, and in the coast band there is no brake that the model did not
ask for and the start did not have. -/
theorem governAccel_refines (g : Governor) (hoff : g.tFollowMin = 0) :
    (∀ aPrev c, (governAccel g aPrev c).1 =
        slew aPrev (g.jerkMaxCmd * max c.dt (1 / 1000))
          (min c.aModel (g.ceiling c.vEgo c.vMaxKph))) ∧
      (∀ start calls, (∀ c ∈ calls, AboveCap g c) →
        Run.run (govern g) start calls ≤ max 0 (start - (calls.map fun c => g.da c.dt).sum)) ∧
      ∀ start calls, (∀ c ∈ calls, InBand g c) →
        ∀ b ≤ 0, b ≤ start → (∀ c ∈ calls, b ≤ c.aModel) →
          b ≤ Run.run (govern g) start calls :=
  ⟨governAccel_eq g hoff, fun start _ habove => run_govern_le g hoff habove start,
    fun _ _ hband _ hb hstart hmodel => le_run_govern g hoff hband hb hstart hmodel⟩

/-- At 108 km/h under a limit of 80. -/
def overLimit : Call := { aModel := 1, vEgo := 30, dt := 1 / 20, vMaxKph := some 80 }

/-- At 83 km/h under the same limit. -/
def inBand : Call := { aModel := 1, vEgo := 23, dt := 1 / 20, vMaxKph := some 80 }

/-- With the defaults the first brakes, half a second of it brings a command of 1 down to zero, and
the second does not brake. -/
theorem governor_refines :
    (governAccel governor 0 overLimit).1 = -1 / 10 ∧
      Run.run (govern governor) 1 (List.replicate 10 overLimit) ≤ 0 ∧
      0 ≤ Run.run (govern governor) (1 / 2) [inBand, inBand] := by
  obtain ⟨heq, habove, hband⟩ := governAccel_refines governor rfl
  refine ⟨?_, (habove 1 (List.replicate 10 overLimit) ?_).trans ?_,
    hband (1 / 2) [inBand, inBand] ?_ 0 (le_refl _) (by norm_num) ?_⟩
  · rw [heq]
    decide +kernel
  · intro c hc
    rw [List.eq_of_mem_replicate hc]
    show governor.cap overLimit.vMaxKph < vKph overLimit.vEgo
    decide +kernel
  · decide +kernel
  · intro c hc
    obtain rfl : c = inBand := by simpa using hc
    show governor.cap inBand.vMaxKph < vKph inBand.vEgo ∧
      vKph inBand.vEgo ≤ governor.brakeAt inBand.vMaxKph
    decide +kernel
  · intro c hc
    obtain rfl : c = inBand := by simpa using hc
    decide +kernel

end Host
end MazdaPort
