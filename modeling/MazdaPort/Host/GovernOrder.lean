import MazdaPort.Host.Govern
import Mathlib.Tactic.GCongr

/-!
# MazdaPort.Host.GovernOrder

How the command of `govern_accel` moves with its inputs.

`ceiling_eq`: the seven regions of the ceiling are one difference, what the taper leaves of the
speed ceiling less what the cap brakes. Both of its terms move one way with the speed and with the
two thresholds of the cap, and the call without a limit has both thresholds as high as they go.
-/

namespace MazdaPort
namespace Host

open Slew

/-! ## The table -/

section Table

variable {v w last : Rat}

theorem baseLoop_le {c : Rat} (hlast : last ≤ c) {points : List (Rat × Rat)}
    (hx : points.Pairwise fun p q => p.1 < q.1) (hy : ∀ p ∈ points, p.2 ≤ c)
    (hv : ∀ p ∈ points.head?, p.1 ≤ v) : baseLoop v last points ≤ c :=
  baseLoop_of_points (P := fun y => y ≤ c) interp_le hlast hx hy hv

/-- A table whose values fall with its breakpoints falls everywhere. -/
theorem baseLoop_anti (hvw : v ≤ w) {points : List (Rat × Rat)}
    (hx : points.Pairwise fun p q => p.1 < q.1) (hy : points.Pairwise fun p q => q.2 ≤ p.2)
    (hlast : ∀ p ∈ points, last ≤ p.2) (hv : ∀ p ∈ points.head?, p.1 ≤ v) :
    baseLoop w last points ≤ baseLoop v last points := by
  fun_induction baseLoop v last points with
  | case1 x0 y0 x1 y1 rest hle =>
    have hx01 : x0 < x1 := (List.pairwise_cons.1 hx).1 _ (List.mem_cons_self ..)
    have hy01 : y1 ≤ y0 := (List.pairwise_cons.1 hy).1 _ (List.mem_cons_self ..)
    rw [baseLoop, mul_div_assoc, mul_div_assoc]
    split
    · exact interp_anti hx01 hy01 hvw
    · next hbeyond =>
      -- `w` is on a later segment, and all of those lie below the end of this one.
      calc baseLoop w last ((x1, y1) :: rest) ≤ y1 := by
            refine baseLoop_le ?_ (List.pairwise_cons.1 hx).2 ?_ ?_
            · exact hlast (x1, y1) (List.mem_cons_of_mem _ (List.mem_cons_self ..))
            · intro p hp
              rcases List.mem_cons.1 hp with rfl | hp
              · exact le_refl _
              · exact (List.pairwise_cons.1 (List.pairwise_cons.1 hy).2).1 p hp
            · intro p hp
              cases hp
              exact le_of_not_ge hbeyond
        _ ≤ y0 + (y1 - y0) * ((v - x0) / (x1 - x0)) :=
            le_interp hx01 (hv _ rfl) hle hy01 (le_refl _)
  | case2 x0 y0 x1 y1 rest hgt ih =>
    rw [baseLoop, if_neg fun hw => hgt (hvw.trans hw)]
    refine ih (List.pairwise_cons.1 hx).2 (List.pairwise_cons.1 hy).2
      (fun p hp => hlast p (List.mem_cons_of_mem _ hp)) ?_
    intro p hp
    cases hp
    exact le_of_not_ge hgt
  | case3 points hshort =>
    rw [baseLoop]
    exact hshort

end Table

section Order

variable (g : Governor)

/-- The two ends of the table are where the loop would put them. -/
theorem maxAccelFor_eq (vEgo : Rat) :
    maxAccelFor g vEgo =
      min g.accelMaxCmd (baseLoop (max 0 vEgo) (6 / 10) (accelMaxBp.zip accelMaxV) *
        g.accelScale) := by
  have hv : 0 ≤ max 0 vEgo := le_max_left ..
  unfold maxAccelFor
  generalize max 0 vEgo = v at hv ⊢
  refine congrArg (fun base => min g.accelMaxCmd (base * g.accelScale)) ?_
  simp only [accelMaxBp, accelMaxV, List.headD_cons, List.getLastD_cons, List.getLastD_nil,
    List.zip_cons_cons, List.zip_nil_left]
  split
  · next hlow =>
    have hzero : v = 0 := le_antisymm hlow hv
    rw [hzero]
    decide +kernel
  · split
    · next hlow hhigh =>
      rcases eq_or_lt_of_le hhigh with rfl | hhigh
      · decide +kernel
      · simp only [baseLoop]
        rw [if_neg (by linarith), if_neg (by linarith), if_neg (by linarith)]
    · rfl

theorem maxAccelFor_anti {v w : Rat} (h : v ≤ w) : maxAccelFor g w ≤ maxAccelFor g v := by
  rw [maxAccelFor_eq, maxAccelFor_eq]
  refine min_le_min_left _ (mul_le_mul_of_nonneg_right ?_ g.accelScale_nonneg)
  refine baseLoop_anti (max_le_max_left 0 h) (by decide +kernel) (by decide +kernel)
    (by decide +kernel) ?_
  intro p hp
  cases hp
  exact le_max_left ..

/-! ## The ceiling -/

/-- What the taper leaves of the speed ceiling under a cap. -/
def Governor.tapered (vEgo cap : Rat) : Rat :=
  maxAccelFor g vEgo * min 1 (max 0 (cap - vKph vEgo) / g.vTaperKph)

/-- The brake above a threshold. -/
def Governor.brake (vEgo brakeAt : Rat) : Rat :=
  min g.vCapDecelMax (g.vCapGain * max 0 (vKph vEgo - brakeAt))

/-- Above the cap the taper leaves nothing and below the threshold there is no brake, so that the
regions of the ceiling are one difference. -/
theorem ceiling_eq (vEgo : Rat) (vMaxKph : Option Rat) :
    g.ceiling vEgo vMaxKph =
      g.tapered vEgo (g.cap vMaxKph) - g.brake vEgo (g.brakeAt vMaxKph) := by
  have hcap := cap_le_brakeAt g vMaxKph
  have hnobrake : min g.vCapDecelMax (g.vCapGain * 0) = 0 := by
    rw [mul_zero]
    exact min_eq_right g.vCapDecelMax_nonneg
  unfold Governor.ceiling Governor.tapered Governor.brake
  split
  · next hbrake =>
    rw [max_eq_left (by linarith), max_eq_right (by linarith), zero_div,
      min_eq_right zero_le_one, mul_zero, zero_sub]
  · next hbrake =>
    rw [max_eq_left (sub_nonpos.2 (not_lt.1 hbrake)), hnobrake, sub_zero]
    split
    · rw [max_eq_left (by linarith), zero_div, min_eq_right zero_le_one, mul_zero]
    · rw [max_eq_right (by linarith)]

theorem vKph_mono {v w : Rat} (h : v ≤ w) : vKph v ≤ vKph w :=
  mul_le_mul_of_nonneg_right h (by norm_num)

theorem tapered_anti {v w cap : Rat} (h : v ≤ w) : g.tapered w cap ≤ g.tapered v cap := by
  have htaper := g.vTaperKph_pos
  have hhead : cap - vKph w ≤ cap - vKph v := sub_le_sub_left (vKph_mono h) cap
  have hleft : min 1 (max 0 (cap - vKph w) / g.vTaperKph) ≤
      min 1 (max 0 (cap - vKph v) / g.vTaperKph) := by gcongr
  have hnonneg : 0 ≤ min 1 (max 0 (cap - vKph w) / g.vTaperKph) :=
    le_min zero_le_one (div_nonneg (le_max_left ..) htaper.le)
  exact mul_le_mul (maxAccelFor_anti g h) hleft hnonneg (maxAccelFor_nonneg g v)

theorem tapered_mono {vEgo cap cap' : Rat} (h : cap ≤ cap') :
    g.tapered vEgo cap ≤ g.tapered vEgo cap' := by
  have hmax := maxAccelFor_nonneg g vEgo
  have htaper := g.vTaperKph_pos
  unfold Governor.tapered
  gcongr

theorem brake_mono {v w brakeAt : Rat} (h : v ≤ w) : g.brake v brakeAt ≤ g.brake w brakeAt := by
  have hgain := g.vCapGain_nonneg
  have hspeed := vKph_mono h
  unfold Governor.brake
  gcongr

theorem brake_anti {vEgo brakeAt brakeAt' : Rat} (h : brakeAt ≤ brakeAt') :
    g.brake vEgo brakeAt' ≤ g.brake vEgo brakeAt := by
  have hgain := g.vCapGain_nonneg
  unfold Governor.brake
  gcongr

/-- `x` allows no more than `y`: both thresholds of its cap are at most those of `y`. -/
def Governor.Tighter (x y : Option Rat) : Prop := g.cap x ≤ g.cap y ∧ g.brakeAt x ≤ g.brakeAt y

theorem tighter_some {x y : Rat} (h : x ≤ y) : g.Tighter (some x) (some y) := by
  have hcap : g.cap (some x) ≤ g.cap (some y) := min_le_min_right _ h
  exact ⟨hcap, min_le_min_right _ (add_le_add_left hcap _)⟩

/-- The fixed ceiling is the loosest cap. -/
theorem tighter_none (x : Option Rat) : g.Tighter x none := by
  cases x with
  | none => exact ⟨le_refl _, le_refl _⟩
  | some x => exact ⟨min_le_right .., min_le_right ..⟩

theorem ceiling_anti {v w : Rat} (h : v ≤ w) (vMaxKph : Option Rat) :
    g.ceiling w vMaxKph ≤ g.ceiling v vMaxKph := by
  rw [ceiling_eq, ceiling_eq]
  exact sub_le_sub (tapered_anti g h) (brake_mono g h)

theorem ceiling_mono (vEgo : Rat) {x y : Option Rat} (h : g.Tighter x y) :
    g.ceiling vEgo x ≤ g.ceiling vEgo y := by
  rw [ceiling_eq, ceiling_eq]
  exact sub_le_sub (tapered_mono g h.1) (brake_anti g h.2)

/-! ## The command -/

/-- A call with a higher wish, a lower speed and a looser cap. -/
structure Call.Below (c c' : Call) : Prop where
  aModel : c.aModel ≤ c'.aModel
  vEgo : c'.vEgo ≤ c.vEgo
  vMaxKph : g.Tighter c.vMaxKph c'.vMaxKph
  dt : c.dt = c'.dt

theorem govern_le (hoff : g.tFollowMin = 0) {aPrev aPrev' : Rat} {c c' : Call}
    (hprev : aPrev ≤ aPrev') (h : Call.Below g c c') : govern g aPrev c ≤ govern g aPrev' c' := by
  unfold govern
  rw [governAccel_eq g hoff, governAccel_eq g hoff, h.dt]
  refine slew_mono hprev (min_le_min h.aModel ?_)
  calc g.ceiling c.vEgo c.vMaxKph ≤ g.ceiling c'.vEgo c.vMaxKph := ceiling_anti g h.vEgo _
    _ ≤ g.ceiling c'.vEgo c'.vMaxKph := ceiling_mono g _ h.vMaxKph

end Order

/-- With the lead rule off the command of `govern_accel` rises with the model's wish, the last
command and the limit, falls with the speed, and no limit lets it above what it is without one. -/
theorem governAccel_monotone (g : Governor) (hoff : g.tFollowMin = 0) (aPrev : Rat) (c : Call) :
    (∀ aModel, c.aModel ≤ aModel →
        (governAccel g aPrev c).1 ≤
          (governAccel g aPrev { c with aModel := aModel }).1) ∧
      (∀ aPrev', aPrev ≤ aPrev' →
        (governAccel g aPrev c).1 ≤ (governAccel g aPrev' c).1) ∧
      (∀ vEgo, c.vEgo ≤ vEgo →
        (governAccel g aPrev { c with vEgo := vEgo }).1 ≤
          (governAccel g aPrev c).1) ∧
      (∀ x y, x ≤ y →
        (governAccel g aPrev { c with vMaxKph := some x }).1 ≤
          (governAccel g aPrev { c with vMaxKph := some y }).1) ∧
      ∀ vMaxKph,
        (governAccel g aPrev { c with vMaxKph := vMaxKph }).1 ≤
          (governAccel g aPrev { c with vMaxKph := none }).1 := by
  have hsame : g.Tighter c.vMaxKph c.vMaxKph := ⟨le_refl _, le_refl _⟩
  refine ⟨fun aModel h => ?_, fun aPrev' h => ?_, fun vEgo h => ?_, fun x y h => ?_,
    fun vMaxKph => ?_⟩
  · exact govern_le g hoff (le_refl _) ⟨h, le_refl _, hsame, rfl⟩
  · exact govern_le g hoff h ⟨le_refl _, le_refl _, hsame, rfl⟩
  · exact govern_le g hoff (le_refl _) ⟨le_refl _, h, hsame, rfl⟩
  · exact govern_le g hoff (le_refl _) ⟨le_refl _, le_refl _, tighter_some g h, rfl⟩
  · exact govern_le g hoff (le_refl _)
      ⟨le_refl _, le_refl _, tighter_none g vMaxKph, rfl⟩

/-- At 72 km/h a limit of 60 allows no more than one of 80. -/
theorem governAccel_monotone_limit :
    (governAccel governor 0 { aModel := 1, vEgo := 20, dt := 1 / 20, vMaxKph := some 60 }).1 ≤
      (governAccel governor 0 { aModel := 1, vEgo := 20, dt := 1 / 20, vMaxKph := some 80 }).1 :=
  (governAccel_monotone governor rfl 0 { aModel := 1, vEgo := 20, dt := 1 / 20 }).2.2.2.1 60 80 (by norm_num)

end Host
end MazdaPort
