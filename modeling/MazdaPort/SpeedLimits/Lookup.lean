import MazdaPort.Lib.Pick
import MazdaPort.SpeedLimits.Grid
import Mathlib.Algebra.Order.Floor.Ring
import Mathlib.Analysis.SpecialFunctions.Complex.Arg

/-!
# MazdaPort.SpeedLimits.Lookup

`SpeedLimitIndex.lookup` of `speed_limits.py`.

Coordinates are rational, and so is the quotient that gives the cell of a position; what is measured
lies in any ordered field that has the functions of `math` and `numpy` that the source calls.
`lookup` asks for the heading before it takes the least score and for the distance after that.
`lookup_finds_iff`: it therefore finds a road wherever one qualifies exactly when no candidate
beyond the distance scores before it.
-/

namespace MazdaPort
namespace SpeedLimits

deriving instance DecidableEq for Location
deriving instance DecidableEq for Segment

/-! ## Constants -/

def maxMatchM : Rat := 25

def maxHeadingErrDeg : Rat := 50

def classCreditM : Rat := 12 / 10

def highwayTypes : List String :=
  ["motorway", "motorway_link", "trunk", "trunk_link", "primary", "primary_link", "secondary",
    "secondary_link", "tertiary", "tertiary_link", "unclassified", "residential", "living_street",
    "service"]

/-! ## Candidates -/

/-- The segments of a slice. -/
def SpeedLimitIndex.arange (ix : SpeedLimitIndex) (sl : Int × Int) : List Segment :=
  (ix.segments.drop sl.1.toNat).take (sl.2 - sl.1).toNat

/-- `math.floor(deg / self.cell_deg)`, without rounding. -/
def cellNumber (deg : Rat) : Int := (deg / cellDeg).floor

theorem cellNumber_bounds {deg : Rat} (hlow : -180 ≤ deg) (hhigh : deg ≤ 180) :
    -18000 ≤ cellNumber deg ∧ cellNumber deg ≤ 18000 := by
  have hscale : deg / cellDeg = deg * 100 := by
    rw [cellDeg, div_div_eq_mul_div, div_one]
  constructor
  · rw [cellNumber, Rat.le_floor_iff, hscale]
    push_cast
    linarith
  · have hlt : cellNumber deg < 18001 := by
      rw [cellNumber, Rat.floor_lt_iff, hscale]
      push_cast
      linarith
    omega

/-- `_candidates`, the segments in the place of their indices. -/
def SpeedLimitIndex.candidates (ix : SpeedLimitIndex) (lat lon : Rat) : List Segment :=
  let cy := cellNumber lat
  let cx := cellNumber lon
  [-1, 0, 1].flatMap fun dy =>
    [-1, 0, 1].flatMap fun dx =>
      match ix.cellSlice (cy + dy) (cx + dx) with
      | some sl => ix.arange sl
      | none => []

/-! ## Measures -/

/-- The functions of `math` and `numpy` that `lookup` calls. -/
structure Calls (K : Type*) where
  radians : K → K
  degrees : K → K
  cos : K → K
  sqrt : K → K
  arctan2 : K → K → K

section Measures

variable {K : Type*} [Field K] [LinearOrder K] (M : Calls K)

def mPerDegLat (lat : Rat) : K :=
  let mlat := M.radians lat
  11113292 / 100 - 55982 / 100 * M.cos (2 * mlat) + 1175 / 1000 * M.cos (4 * mlat)

def mPerDegLon (lat : Rat) : K :=
  let mlat := M.radians lat
  11141284 / 100 * M.cos mlat - 935 / 10 * M.cos (3 * mlat)

/-- A place in metres east and north of the position. -/
structure Point (K : Type*) where
  x : K
  y : K

/-- The local projection around `lat`, `lon`. -/
def project (lat lon : Rat) (l : Location) : Point K :=
  ⟨((l.lon - lon : Rat) : K) * mPerDegLon M lat, ((l.lat - lat : Rat) : K) * mPerDegLat M lat⟩

/-- `np.clip(a, 0.0, 1.0)`. -/
def clip (a : K) : K := min (max a 0) 1

/-- How far along from `p` to `q` the point nearest to the position is. -/
def nearestAt (p q : Point K) : K :=
  let dx := q.x - p.x
  let dy := q.y - p.y
  let segLen2 := dx * dx + dy * dy
  let segLen2 := if segLen2 < 1 / 10 ^ 9 then 1 / 10 ^ 9 else segLen2
  clip (-(p.x * dx + p.y * dy) / segLen2)

/-- `dist`, from the position to the segment between `p` and `q`. -/
def distanceTo (p q : Point K) : K :=
  let t := nearestAt p q
  let px := p.x + t * (q.x - p.x)
  let py := p.y + t * (q.y - p.y)
  M.sqrt (px * px + py * py)

/-- `a % b` of Python. -/
def pyMod [FloorRing K] (a b : K) : K := a - b * ⌊a / b⌋

/-- `herr`, modulo a half turn. -/
def headingErr [FloorRing K] (headingDeg : Rat) (p q : Point K) : K :=
  let segBearing := pyMod (M.degrees (M.arctan2 (q.x - p.x) (q.y - p.y))) 360
  let d := |pyMod (segBearing - (headingDeg : K) + 180) 360 - 180|
  min d (180 - d)

end Measures

/-! ## The lookup -/

section Lookup

variable {K : Type*} [Field K] [LinearOrder K] [FloorRing K] (M : Calls K)

/-- What a lookup asks: a position and, if it is known, a heading. -/
structure Query where
  lat : Rat
  lon : Rat
  headingDeg : Option Rat

variable (q : Query) (seg : Segment)

def Query.dist : K := distanceTo M (project M q.lat q.lon seg.start) (project M q.lat q.lon seg.stop)

/-- What a segment scores before the heading is looked at. -/
def Query.rank : K := q.dist M seg + (classCreditM : K) * (seg.hwType : K)

def Query.herr (headingDeg : Rat) : K :=
  headingErr M headingDeg (project M q.lat q.lon seg.start) (project M q.lat q.lon seg.stop)

/-- The segment runs roughly the way we are travelling. -/
def Query.headingOk : Bool :=
  match q.headingDeg with
  | some headingDeg => decide (q.herr M seg headingDeg ≤ (maxHeadingErrDeg : K))
  | none => true

/-- The segment is close enough to be the road we are on. -/
def Query.near : Bool := decide (q.dist M seg ≤ (maxMatchM : K))

/-- What a lookup returns. -/
structure Found (K : Type*) where
  limitMps : Rat
  inferred : Bool
  highway : String
  distanceM : K
  headingErrDeg : Option K

def Query.found : Found K where
  limitMps := seg.limit
  inferred := seg.inferred
  highway := highwayTypes.getD seg.hwType ""
  distanceM := q.dist M seg
  headingErrDeg := q.headingDeg.map (q.herr M seg)

/-- `score`, with `⊤` for `np.inf`. -/
def Query.score : WithTop K :=
  match q.headingDeg with
  | some headingDeg =>
    if q.herr M seg headingDeg > (maxHeadingErrDeg : K) then ⊤ else WithTop.some (q.rank M seg)
  | none => WithTop.some (q.rank M seg)

/-- The segment that a list of candidates is matched with. -/
def Query.best (cands : List Segment) : Option Segment :=
  match cands.argmin (q.score M) with
  | some best => if q.score M best = ⊤ ∨ q.dist M best > (maxMatchM : K) then none else some best
  | none => none

def SpeedLimitIndex.lookup (ix : SpeedLimitIndex) : Option (Found K) :=
  (q.best M (ix.candidates q.lat q.lon)).map (q.found M)

/-- The segment is within both limits. -/
def Query.Qualifies : Prop := q.headingOk M seg = true ∧ q.near M seg = true

variable {M q seg}

theorem score_eq : q.score M seg = Pick.score (q.rank M) (q.headingOk M) seg := by
  unfold Query.score Pick.score Query.headingOk
  split
  · next headingDeg hheading =>
    by_cases hle : q.herr M seg headingDeg ≤ (maxHeadingErrDeg : K)
    · simp [hle, not_lt.2 hle]
    · simp [hle, not_le.1 hle]
  · rfl

theorem score_eq_top : q.score M seg = ⊤ ↔ q.headingOk M seg = false := by
  rw [score_eq, Pick.score]
  cases q.headingOk M seg <;> simp

/-- The lookup asks for the heading before and for the distance after the least score. -/
theorem best_eq (cands : List Segment) :
    q.best M cands = Pick.pick (q.rank M) (q.headingOk M) (q.near M) cands := by
  have hscore : q.score M = Pick.score (q.rank M) (q.headingOk M) := funext fun _ => score_eq
  unfold Query.best Pick.pick
  rw [← hscore]
  cases cands.argmin (q.score M) with
  | none => rfl
  | some best =>
    have hnear : q.dist M best > (maxMatchM : K) ↔ q.near M best = false := by
      simp [Query.near]
    cases hok : q.headingOk M best <;> cases hn : q.near M best <;>
      simp [score_eq_top, hnear, hok, hn, Option.filter]

variable (M q)

/-- What is asked of a lookup: a road wherever a candidate qualifies, and the best of those. -/
def FindsRoad (ix : SpeedLimitIndex) : Prop :=
  (∃ seg ∈ ix.candidates q.lat q.lon, q.Qualifies M seg) →
    ∃ seg ∈ ix.candidates q.lat q.lon, ix.lookup M q = some (q.found M seg) ∧ q.Qualifies M seg ∧
      ∀ other ∈ ix.candidates q.lat q.lon, q.Qualifies M other → q.rank M seg ≤ q.rank M other

/-- Where a candidate qualifies, one does before which no candidate scores that is too far away. -/
def NotHidden (ix : SpeedLimitIndex) : Prop :=
  (∃ seg ∈ ix.candidates q.lat q.lon, q.Qualifies M seg) →
    Pick.Unhidden (q.rank M) (q.headingOk M) (q.near M) (ix.candidates q.lat q.lon)

variable {M q} in
theorem notHidden_of_findsRoad {ix : SpeedLimitIndex} (h : FindsRoad M q ix) :
    NotHidden M q ix := by
  intro hsome
  obtain ⟨seg, _, hlookup, _⟩ := h hsome
  obtain ⟨best, hbest, _⟩ := Option.map_eq_some_iff.1 hlookup
  rw [best_eq] at hbest
  exact Pick.unhidden_of_pick hbest

variable {M q} in
theorem findsRoad_of_notHidden {ix : SpeedLimitIndex} (h : NotHidden M q ix) :
    FindsRoad M q ix := by
  intro hsome
  obtain ⟨best, hbest⟩ := Pick.exists_pick_of_unhidden (h hsome)
  obtain ⟨hmem, hok, hnear⟩ := Pick.pick_mem hbest
  refine ⟨best, hmem, ?_, ⟨hok, hnear⟩, ?_⟩
  · rw [SpeedLimitIndex.lookup, best_eq, hbest]
    rfl
  · intro other hother hqual
    exact Pick.rank_le_of_pick hbest hother hqual.1

/-- A lookup finds the best road that qualifies exactly when no candidate beyond the distance limit
scores before all of those. -/
theorem lookup_finds_iff (ix : SpeedLimitIndex) : FindsRoad M q ix ↔ NotHidden M q ix :=
  ⟨notHidden_of_findsRoad, findsRoad_of_notHidden⟩

end Lookup

/-! ## Over the reals -/

/-- What the functions compute without rounding. -/
noncomputable def realCalls : Calls Real where
  radians := fun x => x * Real.pi / 180
  degrees := fun x => x * 180 / Real.pi
  cos := Real.cos
  sqrt := Real.sqrt
  arctan2 := fun y x => Complex.arg ⟨x, y⟩

theorem mPerDegLat_zero : mPerDegLat realCalls 0 = 110574275 / 1000 := by
  simp [mPerDegLat, realCalls]
  norm_num

theorem mPerDegLon_zero : mPerDegLon realCalls 0 = 11131934 / 100 := by
  simp [mPerDegLon, realCalls]
  norm_num

/-- The point nearest to the position on a segment that crosses its parallel at a right angle, half
way along. -/
theorem distanceTo_across {c a : Real} (ha : 1 ≤ a) :
    distanceTo realCalls ⟨c, -a⟩ ⟨c, a⟩ = |c| := by
  have hlong : ¬ (c - c) * (c - c) + (a - -a) * (a - -a) < 1 / 10 ^ 9 := by
    have hsquare : 1 ≤ a * a := one_le_mul_of_one_le_of_one_le ha ha
    norm_num
    nlinarith
  have hhalf : nearestAt (⟨c, -a⟩ : Point Real) ⟨c, a⟩ = 1 / 2 := by
    have hratio : -(c * (c - c) + -a * (a - -a)) / ((c - c) * (c - c) + (a - -a) * (a - -a)) =
        1 / 2 := by
      field_simp
      ring
    simp only [nearestAt, if_neg hlong, hratio, clip]
    norm_num
  have hpx : c + 1 / 2 * (c - c) = c := by ring
  have hpy : -a + 1 / 2 * (a - -a) = 0 := by ring
  rw [distanceTo, hhalf, hpx, hpy, mul_zero, add_zero]
  exact Real.sqrt_mul_self_eq_abs c

/-- A straight road across the equator. -/
def meridianRoad (lon : Rat) (hlon : -180 ≤ lon ∧ lon ≤ 180) (limit : Rat) (hwType : Nat) : Segment
    where
  start := ⟨-1 / 1024, lon, by norm_num, hlon⟩
  stop := ⟨1 / 1024, lon, by norm_num, hlon⟩
  limit := limit
  inferred := false
  hwType := hwType

/-- Its distance on the equator is that to its meridian. -/
theorem dist_meridianRoad (lon₀ lon : Rat) (headingDeg : Option Rat)
    (hlon : -180 ≤ lon ∧ lon ≤ 180) (limit : Rat) (hwType : Nat) :
    Query.dist realCalls ⟨0, lon₀, headingDeg⟩ (meridianRoad lon hlon limit hwType) =
      |((lon - lon₀ : Rat) : Real) * (11131934 / 100)| := by
  have hsouth : ((-1 / 1024 - 0 : Rat) : Real) * (110574275 / 1000) = -(110574275 / 1024000) := by
    norm_num
  have hnorth : ((1 / 1024 - 0 : Rat) : Real) * (110574275 / 1000) = 110574275 / 1024000 := by
    norm_num
  rw [Query.dist, project, project, mPerDegLat_zero, mPerDegLon_zero]
  simp only [meridianRoad, hsouth, hnorth]
  exact distanceTo_across (by norm_num)

/-- A motorway 28 m away and a service road 22 m away. -/
def motorwayBeside : SpeedLimitIndex where
  segments :=
    [meridianRoad (37 + 33 / 2 ^ 17) (by norm_num) 30 0,
      meridianRoad (37 + 26 / 2 ^ 17) (by norm_num) 7 13]
  cellKeys := [cellKey 0 3700]
  cellStart := [0]
  cellCount := [2]

theorem motorwayBeside_candidates :
    motorwayBeside.candidates 0 37 = motorwayBeside.segments := by
  decide +kernel

/-- The motorway is too far away to be the road, and the lookup finds nothing because of it. -/
theorem motorwayBeside_hides : ¬ FindsRoad realCalls ⟨0, 37, none⟩ motorwayBeside := by
  let q : Query := ⟨0, 37, none⟩
  let motorway := meridianRoad (37 + 33 / 2 ^ 17) (by norm_num) 30 0
  let service := meridianRoad (37 + 26 / 2 ^ 17) (by norm_num) 7 13
  have hmotorway : q.dist realCalls motorway = 33 / 2 ^ 17 * (11131934 / 100) := by
    rw [dist_meridianRoad]
    norm_num
  have hservice : q.dist realCalls service = 26 / 2 ^ 17 * (11131934 / 100) := by
    rw [dist_meridianRoad]
    norm_num
  have hfar : q.near realCalls motorway = false := by
    simp [Query.near, hmotorway, maxMatchM]
    norm_num
  have hclose : q.near realCalls service = true := by
    simp [Query.near, hservice, maxMatchM]
    norm_num
  have hbefore : q.rank realCalls motorway < q.rank realCalls service := by
    rw [Query.rank, Query.rank, hmotorway, hservice]
    norm_num [classCreditM, motorway, service, meridianRoad]
  have hcands : motorwayBeside.candidates q.lat q.lon = [motorway, service] :=
    motorwayBeside_candidates
  intro h
  have hunhidden := notHidden_of_findsRoad h ⟨service, by simp [q, hcands], rfl, hclose⟩
  rw [hcands] at hunhidden
  obtain ⟨k, seg, hseg, _, hnear, hfirst⟩ := hunhidden
  match k with
  | 0 =>
    cases hseg
    rw [hfar] at hnear
    cases hnear
  | 1 =>
    cases hseg
    exact absurd (hfirst 0 motorway rfl rfl hfar).1 (not_le.2 hbefore)
  | _ + 2 => cases hseg

end SpeedLimits
end MazdaPort
