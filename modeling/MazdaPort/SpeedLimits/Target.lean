import MazdaPort.Lib.Run
import MazdaPort.SpeedLimits.Double

/-!
# MazdaPort.SpeedLimits.Target

`SpeedTarget` of `speed_target.py`: the cruise target from one road match to the next.

`update` chooses what it wants (a match, the limit it holds, the fallback) and then moves the
target. `aim` is that choice in terms of the state and the call, and `update_updated` says from it
what a call does. The two results on runs are `update_slew_iff`, when the target is ramped, and
`rejected_of_cushioned`, when a limit that is turned down would not have asked for more. All numbers
are doubles, `nan` and the infinities among them.
-/

namespace MazdaPort
namespace SpeedLimits

open Gps

/-! ## Constants -/

def mpsToKph : Double := PyFloat.ofText (.decimal false 36 (-1))

def mphToKph : Double := PyFloat.ofText (.decimal false 1609344 (-6))

/-- The constants that the environment may set. -/
structure Tuning where
  stdOverKph : Double
  madsOverKph : Double
  holdS : Double
  fallbackKph : Double
  inferredScale : Double
  slewKphS : Double
  inferredMaxDropKph : Double

/-- The defaults. -/
def tuning : Tuning where
  stdOverKph := PyFloat.ofInt 10 * mphToKph
  madsOverKph := PyFloat.ofInt 15 * mphToKph
  holdS := PyFloat.ofInt 20
  fallbackKph := PyFloat.ofInt 40
  inferredScale := PyFloat.ofText (.decimal false 9 (-1))
  slewKphS := PyFloat.ofInt 8
  inferredMaxDropKph := PyFloat.ofInt 30

/-- The constants that an aim is computed with are numbers. -/
structure Tuning.Numbers (T : Tuning) : Prop where
  stdOverKph : ∃ q, T.stdOverKph.val = .fin q
  madsOverKph : ∃ q, T.madsOverKph.val = .fin q
  fallbackKph : PyFloat.isNan T.fallbackKph = false
  inferredScale : ∃ q, T.inferredScale.val = .fin q ∧ q ≠ 0

theorem tuning_numbers : tuning.Numbers where
  stdOverKph := Double.exists_fin (by decide +kernel) (by decide +kernel)
  madsOverKph := Double.exists_fin (by decide +kernel) (by decide +kernel)
  fallbackKph := by decide +kernel
  inferredScale := ⟨binary64.round (9 / 10), by decide +kernel, by decide +kernel⟩

/-! ## What a call reads -/

structure Fix where
  lat : Double
  lon : Double
  headingDeg : Option Double

/-- What `update` takes from a match of the index. -/
structure Road where
  limitMps : Double
  inferred : Bool
  highway : String

def Road.limitKph (r : Road) : Double := r.limitMps * mpsToKph

/-- One call: the clock, the speed, the fix of the receiver and the answers of the index. -/
structure Tick where
  now : Double
  vEgoKph : Option Double := none
  fix : Option Fix := none
  lookup : Double → Double → Option Double → Option Road := fun _ _ _ => none

/-! ## The state -/

/-- The texts of `why`, with the numbers in them. -/
inductive TargetWhy where
  | startup
  | noIndexGps
  | noFix
  | noRoad
  | rejected (highway : String) (limitKph vEgoKph : Double)
  | road (highway : String) (limitKph : Double) (inferred : Bool)
  | hold (reading : TargetWhy) (held : Double)
  | fallback (reading : TargetWhy)

/-- `sourced`: it was given an index and a receiver. -/
structure SpeedTarget where
  mads : Bool
  vMaxKph : Double
  sourced : Bool
  targetKph : Double
  limitKph : Option Double
  inferred : Bool
  highway : String
  why : TargetWhy
  lastGoodT : Double
  lastUpdate : Double

variable (T : Tuning)

namespace SpeedTarget

/-- `__init__`. -/
def init (mads : Bool) (vMaxKph : Double) (sourced : Bool) : SpeedTarget where
  mads := mads
  vMaxKph := vMaxKph
  sourced := sourced
  targetKph := T.fallbackKph
  limitKph := none
  inferred := false
  highway := ""
  why := .startup
  lastGoodT := PyFloat.ofInt 0
  lastUpdate := PyFloat.ofInt 0

/-- `_target_for`. -/
def targetFor (s : SpeedTarget) (limitKph : Double) (inferred : Bool) : Double :=
  let base := limitKph * (if inferred then T.inferredScale else PyFloat.ofInt 1)
  pyMin (base + if s.mads then T.madsOverKph else T.stdOverKph) s.vMaxKph

/-- `_bad_inferred`. -/
def badInferred (vEgoKph : Option Double) (r : Road) : Bool :=
  match vEgoKph with
  | some vEgoKph =>
    PyFloat.lt (PyFloat.ofInt 0) T.inferredMaxDropKph && r.inferred &&
      PyFloat.lt r.limitKph (vEgoKph - T.inferredMaxDropKph)
  | none => false

/-- The first half of `update`, up to the hold: the state and what it wants, if it knows. -/
def reading (s : SpeedTarget) (t : Tick) : SpeedTarget × Option Double :=
  if s.sourced then
    match t.fix with
    | none => ({ s with why := .noFix }, none)
    | some fx =>
      match t.lookup fx.lat fx.lon fx.headingDeg with
      | none => ({ s with why := .noRoad }, none)
      | some r =>
        if badInferred T t.vEgoKph r then
          let vEgoKph := t.vEgoKph.getD (PyFloat.ofInt 0)
          ({ s with why := .rejected r.highway r.limitKph vEgoKph }, none)
        else
          ({ s with
              limitKph := some r.limitKph
              inferred := r.inferred
              highway := r.highway
              lastGoodT := t.now
              why := .road r.highway r.limitKph r.inferred },
            some (s.targetFor T r.limitKph r.inferred))
  else ({ s with why := .noIndexGps }, none)

/-- How long ago the last good match was, as the hold has it. -/
def heldFor (s : SpeedTarget) (now : Double) : Double :=
  if s.lastGoodT ≠ PyFloat.ofInt 0 then now - s.lastGoodT else PyFloat.ofInt 1000000000

/-- The hold and the fallback. -/
def holdOrFallback (s : SpeedTarget) (now : Double) : SpeedTarget × Double :=
  let held := s.heldFor now
  match s.limitKph with
  | some limitKph =>
    if pyLe held T.holdS then
      ({ s with why := .hold s.why held }, s.targetFor T limitKph s.inferred)
    else
      ({ s with limitKph := none, highway := "", why := .fallback s.why },
        pyMin T.fallbackKph s.vMaxKph)
  | none => ({ s with why := .fallback s.why }, pyMin T.fallbackKph s.vMaxKph)

/-- Where the target goes from where it is, `dt` after the last call. -/
def slewTo (s : SpeedTarget) (dt want : Double) : SpeedTarget :=
  if PyFloat.lt (PyFloat.ofInt 0) dt && PyFloat.lt (PyFloat.ofInt 0) T.slewKphS then
    let step := T.slewKphS * dt
    if PyFloat.lt s.targetKph want then { s with targetKph := pyMin want (s.targetKph + step) }
    else { s with targetKph := want }
  else { s with targetKph := want }

def update (s : SpeedTarget) (t : Tick) : SpeedTarget :=
  let dt := if s.lastUpdate ≠ PyFloat.ofInt 0 then t.now - s.lastUpdate else PyFloat.ofInt 0
  let s := { s with lastUpdate := t.now }
  let (s, want) :=
    match s.reading T t with
    | (s, some want) => (s, want)
    | (s, none) => s.holdOrFallback T t.now
  s.slewTo T dt want

/-! ## What an update wants -/

/-- What the index answers for the fix. -/
def answer (s : SpeedTarget) (t : Tick) : Option Road :=
  if s.sourced then t.fix.bind fun fx => t.lookup fx.lat fx.lon fx.headingDeg else none

/-- The match that an update believes. -/
def accepted (s : SpeedTarget) (t : Tick) : Option Road :=
  (s.answer t).filter fun r => !badInferred T t.vEgoKph r

/-- The match that an update turns down. -/
def rejected (s : SpeedTarget) (t : Tick) : Option Road :=
  (s.answer t).filter fun r => badInferred T t.vEgoKph r

/-- The limit that is still held. -/
def heldLimit (s : SpeedTarget) (now : Double) : Option Double :=
  s.limitKph.filter fun _ => pyLe (s.heldFor now) T.holdS

/-- What an update aims at: the match, else the limit it holds, else the fallback. -/
def aim (s : SpeedTarget) (t : Tick) : Double :=
  match s.accepted T t with
  | some r => s.targetFor T r.limitKph r.inferred
  | none =>
    match s.heldLimit T t.now with
    | some limitKph => s.targetFor T limitKph s.inferred
    | none => pyMin T.fallbackKph s.vMaxKph

/-- The time since the last call, as `update` has it. -/
def sinceLast (s : SpeedTarget) (t : Tick) : Double :=
  if s.lastUpdate ≠ PyFloat.ofInt 0 then t.now - s.lastUpdate else PyFloat.ofInt 0

/-- A rise of the target that `slewTo` ramps. -/
def ramps (s : SpeedTarget) (dt want : Double) : Bool :=
  PyFloat.lt (PyFloat.ofInt 0) dt && PyFloat.lt (PyFloat.ofInt 0) T.slewKphS &&
    PyFloat.lt s.targetKph want

variable {T} {s : SpeedTarget} {t : Tick}

theorem reading_some {r : Road} (h : s.accepted T t = some r) :
    s.reading T t =
      ({ s with
          limitKph := some r.limitKph
          inferred := r.inferred
          highway := r.highway
          lastGoodT := t.now
          why := .road r.highway r.limitKph r.inferred },
        some (s.targetFor T r.limitKph r.inferred)) := by
  obtain ⟨hanswer, hgood⟩ := Option.filter_eq_some_iff.1 h
  have hgood : badInferred T t.vEgoKph r = false := by simpa using hgood
  unfold answer at hanswer
  unfold reading
  split at hanswer
  · next hsourced =>
    obtain ⟨fx, hfix, hlookup⟩ := Option.bind_eq_some_iff.1 hanswer
    simp [hsourced, hfix, hlookup, hgood]
  · cases hanswer

theorem reading_none (h : s.accepted T t = none) :
    ∃ why, s.reading T t = ({ s with why := why }, none) := by
  unfold accepted answer at h
  unfold reading
  split
  · next hsourced =>
    rw [if_pos hsourced] at h
    split
    · exact ⟨_, rfl⟩
    · next fx hfix =>
      rw [hfix, Option.bind_some] at h
      split
      · exact ⟨_, rfl⟩
      · next r hlookup =>
        rw [hlookup] at h
        have hbad : badInferred T t.vEgoKph r = true := by
          simpa [Option.filter] using h
        rw [if_pos hbad]
        exact ⟨_, rfl⟩
  · exact ⟨_, rfl⟩

theorem holdOrFallback_some {now limitKph : Double} (h : s.heldLimit T now = some limitKph) :
    ∃ why, s.holdOrFallback T now =
      ({ s with why := why }, s.targetFor T limitKph s.inferred) := by
  obtain ⟨hlimit, hheld⟩ := Option.filter_eq_some_iff.1 h
  have hheld : pyLe (s.heldFor now) T.holdS = true := by simpa using hheld
  refine ⟨.hold s.why (s.heldFor now), ?_⟩
  simp [holdOrFallback, hlimit, hheld]

/-- On the fallback no limit is kept. -/
theorem holdOrFallback_none {now : Double} (h : s.heldLimit T now = none) :
    ∃ why highway, s.holdOrFallback T now =
      ({ s with limitKph := none, highway := highway, why := why },
        pyMin T.fallbackKph s.vMaxKph) := by
  unfold heldLimit at h
  unfold holdOrFallback
  cases hlimit : s.limitKph with
  | none => exact ⟨.fallback s.why, s.highway, by simp [← hlimit]⟩
  | some limitKph =>
    have hheld : pyLe (s.heldFor now) T.holdS = false := by
      simpa [hlimit, Option.filter] using h
    exact ⟨.fallback s.why, "", by simp [hheld]⟩

/-- What an update keeps of the limit: the match it believes, or nothing new. -/
inductive KeptLimit (T : Tuning) (s s' : SpeedTarget) (t : Tick) : Prop where
  | matched (r : Road) (accepted : s.accepted T t = some r) (limit : s'.limitKph = some r.limitKph)
      (inferred : s'.inferred = r.inferred) (lastGoodT : s'.lastGoodT = t.now)
  | old (limit : s'.limitKph = s.limitKph ∨ s'.limitKph = none)
      (inferred : s'.inferred = s.inferred) (lastGoodT : s'.lastGoodT = s.lastGoodT)

/-- An update: what it leaves alone, the clock it notes, the limit it keeps and the target it
sets. -/
structure Updated (T : Tuning) (s s' : SpeedTarget) (t : Tick) : Prop where
  mads : s'.mads = s.mads
  vMaxKph : s'.vMaxKph = s.vMaxKph
  sourced : s'.sourced = s.sourced
  lastUpdate : s'.lastUpdate = t.now
  limit : KeptLimit T s s' t
  targetKph : s'.targetKph =
    if s.ramps T (s.sinceLast t) (s.aim T t) then
      pyMin (s.aim T t) (s.targetKph + T.slewKphS * s.sinceLast t)
    else s.aim T t

theorem slewTo_eq (s : SpeedTarget) (dt want : Double) :
    s.slewTo T dt want =
      { s with
        targetKph :=
          if s.ramps T dt want then pyMin want (s.targetKph + T.slewKphS * dt) else want } := by
  unfold slewTo ramps
  by_cases hramp :
      (PyFloat.lt (PyFloat.ofInt 0) dt && PyFloat.lt (PyFloat.ofInt 0) T.slewKphS) = true
  · by_cases hup : PyFloat.lt s.targetKph want = true <;> simp [hramp, hup]
  · simp [hramp]

theorem update_updated (s : SpeedTarget) (t : Tick) : Updated T s (s.update T t) t := by
  -- The clock is noted before anything is read, and nothing that is read depends on it.
  unfold update
  dsimp only
  cases hacc : s.accepted T t with
  | some r =>
    have haim : s.aim T t = s.targetFor T r.limitKph r.inferred := by rw [aim, hacc]
    rw [reading_some (s := { s with lastUpdate := t.now }) hacc, slewTo_eq]
    refine ⟨rfl, rfl, rfl, rfl, .matched r hacc rfl rfl rfl, ?_⟩
    rw [haim]
    rfl
  | none =>
    obtain ⟨why, hreading⟩ := reading_none (s := { s with lastUpdate := t.now }) hacc
    rw [hreading]
    dsimp only
    cases hheld : s.heldLimit T t.now with
    | some limitKph =>
      have haim : s.aim T t = s.targetFor T limitKph s.inferred := by rw [aim, hacc]; simp [hheld]
      obtain ⟨why', hhold⟩ :=
        holdOrFallback_some (s := { s with lastUpdate := t.now, why := why }) hheld
      rw [hhold, slewTo_eq]
      refine ⟨rfl, rfl, rfl, rfl, .old (.inl rfl) rfl rfl, ?_⟩
      rw [haim]
      rfl
    | none =>
      have haim : s.aim T t = pyMin T.fallbackKph s.vMaxKph := by rw [aim, hacc]; simp [hheld]
      obtain ⟨why', highway, hhold⟩ :=
        holdOrFallback_none (s := { s with lastUpdate := t.now, why := why }) hheld
      rw [hhold, slewTo_eq]
      refine ⟨rfl, rfl, rfl, rfl, .old (.inr rfl) rfl rfl, ?_⟩
      rw [haim]
      rfl

/-- Every aim is a minimum with the greatest target. -/
theorem exists_aim : ∃ base, s.aim T t = pyMin base s.vMaxKph := by
  unfold aim
  split
  · exact ⟨_, rfl⟩
  · split
    · exact ⟨_, rfl⟩
    · exact ⟨_, rfl⟩

end SpeedTarget

/-! ## The ramp -/

/-- A target and the clock reading of the call before, if there was one. -/
structure Clocked where
  target : SpeedTarget
  previous : Option Double

namespace Clocked

def start (mads : Bool) (vMaxKph : Double) (sourced : Bool) : Clocked :=
  ⟨.init T mads vMaxKph sourced, none⟩

def update (c : Clocked) (t : Tick) : Clocked := ⟨c.target.update T t, some t.now⟩

/-- How long ago the last call was. -/
def elapsed (c : Clocked) (t : Tick) : Double :=
  match c.previous with
  | some previous => t.now - previous
  | none => PyFloat.ofInt 0

/-- The most that the target may rise to. -/
def ceiling (c : Clocked) (t : Tick) : Double :=
  c.target.targetKph + T.slewKphS * pyMax (PyFloat.ofInt 0) (c.elapsed t)

/-- What is asked of an update: a target of at most the maximum, a rise of at most the ramp, and no
ramp downwards. -/
structure SlewLaw (c : Clocked) (t : Tick) : Prop where
  bounded : pyLe (c.target.update T t).targetKph c.target.vMaxKph = true
  ramped : pyLe (c.target.update T t).targetKph (c.ceiling T t) = true
  down : pyLe (c.target.aim T t) c.target.targetKph = true →
    (c.target.update T t).targetKph = c.target.aim T t

/-- The clock has gone forward from a reading that is not zero. -/
def Forward (c : Clocked) (t : Tick) : Prop :=
  ∃ previous, c.previous = some previous ∧ previous ≠ PyFloat.ofInt 0 ∧
    PyFloat.lt previous t.now = true

/-- The maximum, the aim and the ramp are numbers. The ramp is on and the clock has gone forward, or
there is no rise that it would cut. -/
structure Ramped (c : Clocked) (t : Tick) : Prop where
  vMaxKph : PyFloat.isNan c.target.vMaxKph = false
  aim : PyFloat.isNan (c.target.aim T t) = false
  ceiling : PyFloat.isNan (c.ceiling T t) = false
  ramp : (c.Forward t ∧ PyFloat.lt (PyFloat.ofInt 0) T.slewKphS = true) ∨
    pyLe (c.target.aim T t) (c.ceiling T t) = true

/-- The update notes the clock, with zero for none. -/
def Noted (c : Clocked) : Prop := c.target.lastUpdate = c.previous.getD (PyFloat.ofInt 0)

variable {T} {c : Clocked} {t : Tick}

theorem noted_start (mads : Bool) (vMaxKph : Double) (sourced : Bool) :
    (start T mads vMaxKph sourced).Noted := rfl

theorem noted_update (c : Clocked) (t : Tick) : (c.update T t).Noted :=
  (SpeedTarget.update_updated c.target t).lastUpdate

theorem Noted.sinceLast_pos (h : c.Noted) :
    PyFloat.lt (PyFloat.ofInt 0) (c.target.sinceLast t) = true ↔ c.Forward t := by
  have hzero : PyFloat.lt (PyFloat.ofInt 0 : Double) (PyFloat.ofInt 0) = false := by
    rw [lt_fin ofInt_0 ofInt_0]
    rfl
  unfold Noted at h
  unfold SpeedTarget.sinceLast Forward
  rw [h]
  cases hprev : c.previous with
  | none => simp [hzero]
  | some previous =>
    by_cases hset : previous = PyFloat.ofInt 0
    · simp [hset, hzero]
    · simp [hset, Double.sub_pos_iff]

theorem Noted.sinceLast_eq (h : c.Noted) (hfwd : c.Forward t) :
    c.target.sinceLast t = pyMax (PyFloat.ofInt 0) (c.elapsed t) := by
  obtain ⟨previous, hprev, hset, hlt⟩ := hfwd
  unfold Noted at h
  rw [hprev, Option.getD_some] at h
  rw [SpeedTarget.sinceLast, h, if_pos hset, elapsed, hprev, pyMax,
    if_pos (Double.sub_pos_iff.2 hlt)]

/-- A step of the ramp does not lower the target. -/
theorem Noted.le_ceiling (h : c.Noted) (hfwd : c.Forward t)
    (hslew : PyFloat.lt (PyFloat.ofInt 0) T.slewKphS = true)
    (hnum : PyFloat.isNan (c.ceiling T t) = false) :
    pyLe c.target.targetKph (c.ceiling T t) = true := by
  have hstep := Double.mul_nonneg hslew (h.sinceLast_pos.2 hfwd)
  rw [h.sinceLast_eq hfwd] at hstep
  exact Double.le_add_of_nonneg hstep hnum

theorem aim_le (hmax : PyFloat.isNan c.target.vMaxKph = false)
    (haim : PyFloat.isNan (c.target.aim T t) = false) :
    pyLe (c.target.aim T t) c.target.vMaxKph = true := by
  obtain ⟨base, hbase⟩ := SpeedTarget.exists_aim (T := T) (s := c.target) (t := t)
  rw [hbase] at haim ⊢
  unfold pyMin at haim ⊢
  split at haim
  · next hlt =>
    rw [if_pos hlt]
    exact Double.pyLe_refl hmax
  · next hle =>
    rw [if_neg hle]
    exact Double.pyLe_iff.2 ⟨by simpa using hle, haim, hmax⟩

theorem Noted.slewLaw_iff (h : c.Noted) : c.SlewLaw T t ↔ c.Ramped T t := by
  have hset := (SpeedTarget.update_updated (T := T) c.target t).targetKph
  by_cases hramp : c.target.ramps T (c.target.sinceLast t) (c.target.aim T t) = true
  · rw [if_pos hramp] at hset
    obtain ⟨⟨hpos, hslew⟩, hup⟩ :
        (PyFloat.lt (PyFloat.ofInt 0) (c.target.sinceLast t) = true ∧
            PyFloat.lt (PyFloat.ofInt 0) T.slewKphS = true) ∧
          PyFloat.lt c.target.targetKph (c.target.aim T t) = true := by
      simpa [SpeedTarget.ramps] using hramp
    have hfwd : c.Forward t := h.sinceLast_pos.1 hpos
    have haim := (Double.pyLe_iff.1 (Double.pyLe_of_lt hup)).2.2
    rw [h.sinceLast_eq hfwd] at hset
    change _ = pyMin (c.target.aim T t) (c.ceiling T t) at hset
    constructor
    · intro hlaw
      have hmax := (Double.pyLe_iff.1 hlaw.bounded).2.2
      have hceiling := (Double.pyLe_iff.1 hlaw.ramped).2.2
      exact ⟨hmax, haim, hceiling, .inl ⟨hfwd, hslew⟩⟩
    · intro hcond
      have hle := aim_le hcond.vMaxKph haim
      have hdown : pyLe (c.target.aim T t) c.target.targetKph ≠ true := by
        intro hle
        rw [(Double.pyLe_iff.1 hle).1] at hup
        cases hup
      unfold pyMin at hset
      split at hset
      · next hcut =>
        refine ⟨?_, ?_, fun h => absurd h hdown⟩
        · rw [hset]
          exact Double.pyLe_trans (Double.pyLe_of_lt hcut) hle
        · rw [hset]
          exact Double.pyLe_refl hcond.ceiling
      · next hreached =>
        refine ⟨?_, ?_, fun h => absurd h hdown⟩
        · rw [hset]
          exact hle
        · rw [hset]
          exact Double.pyLe_iff.2 ⟨by simpa using hreached, haim, hcond.ceiling⟩
  · rw [if_neg hramp] at hset
    constructor
    · intro hlaw
      have hbounded := Double.pyLe_iff.1 (hset ▸ hlaw.bounded)
      have hrise := hset ▸ hlaw.ramped
      exact ⟨hbounded.2.2, hbounded.2.1, (Double.pyLe_iff.1 hrise).2.2, .inr hrise⟩
    · intro hcond
      refine ⟨hset ▸ aim_le hcond.vMaxKph hcond.aim, ?_, fun _ => hset⟩
      rw [hset]
      rcases hcond.ramp with ⟨hfwd, hslew⟩ | hrise
      · have hstep := h.le_ceiling hfwd hslew hcond.ceiling
        have hup : PyFloat.lt c.target.targetKph (c.target.aim T t) = false := by
          simpa [SpeedTarget.ramps, h.sinceLast_pos.2 hfwd, hslew] using hramp
        have hdown := Double.pyLe_iff.2 ⟨hup, hcond.aim, (Double.pyLe_iff.1 hstep).2.1⟩
        exact Double.pyLe_trans hdown hstep
      · exact hrise

end Clocked

/-- Over a run of updates the target is ramped in each exactly when in each the clock has gone
forward or nothing is to be cut. -/
theorem update_slew_iff (mads : Bool) (vMaxKph : Double) (sourced : Bool) (ticks : List Tick) :
    Run.AllSteps (Clocked.update T) (Clocked.SlewLaw T) (.start T mads vMaxKph sourced) ticks ↔
      Run.AllSteps (Clocked.update T) (Clocked.Ramped T) (.start T mads vMaxKph sourced) ticks :=
  Run.allSteps_congr (fun c t _ => Clocked.noted_update c t) (fun _ _ h => h.slewLaw_iff)
    (Clocked.noted_start mads vMaxKph sourced) ticks

/-- Two calls in one tick of the clock, and a road of 100 km/h matched at the second. -/
def sameTick : List Tick :=
  [{ now := PyFloat.ofInt 1000 },
    { now := PyFloat.ofInt 1000
      fix := some ⟨PyFloat.ofInt 41, PyFloat.ofInt (-74), none⟩
      lookup := fun _ _ _ => some ⟨.of (.fin (250 / 9)), false, "motorway"⟩ }]

/-- The target goes from 40 km/h to 116 at once. -/
theorem sameTick_steps :
    ¬ Run.AllSteps (Clocked.update tuning) (Clocked.SlewLaw tuning)
      (.start tuning false (PyFloat.ofInt 120) true) sameTick := by
  intro h
  have hrise := h.2.1.ramped
  revert hrise
  decide +kernel

/-! ## Limits that are turned down -/

namespace SpeedTarget

/-- After the calls `pre`, the limit that an earlier one of them believed no longer than the hold
ago. -/
def Remembered (start : SpeedTarget) (pre : List Tick) (now limitKph : Double) (inferred : Bool) :
    Prop :=
  ∃ earlier t later r, pre = earlier ++ t :: later ∧
    (Run.run (update T) start earlier).accepted T t = some r ∧
    r.limitKph = limitKph ∧ r.inferred = inferred ∧ pyLe (now - t.now) T.holdS = true

/-- What the calls `pre` have left of a match: it is one that they believed. -/
def Traced (start : SpeedTarget) (pre : List Tick) (s : SpeedTarget) : Prop :=
  ∀ limitKph, s.limitKph = some limitKph →
    ∃ earlier t later r, pre = earlier ++ t :: later ∧
      (Run.run (update T) start earlier).accepted T t = some r ∧
      r.limitKph = limitKph ∧ r.inferred = s.inferred ∧ s.lastGoodT = t.now

/-- The update after `pre` aims at no less than it would have with the limit that it turns down,
or at an earlier limit that is still held. -/
def NeverHarder (start : SpeedTarget) (pre : List Tick) (t : Tick) : Prop :=
  let s := Run.run (update T) start pre
  ∀ r, s.rejected T t = some r →
    pyLe (s.targetFor T r.limitKph r.inferred) (s.aim T t) = true ∨
      ∃ limitKph inferred, Remembered T start pre t.now limitKph inferred ∧
        s.aim T t = s.targetFor T limitKph inferred

/-- A limit is held, or the fallback is no lower than the limit that is turned down. -/
def Cushioned (s : SpeedTarget) (t : Tick) : Prop :=
  ∀ r, s.rejected T t = some r →
    (s.heldLimit T t.now).isSome ∨
      pyLe (s.targetFor T r.limitKph r.inferred) (pyMin T.fallbackKph s.vMaxKph) = true

variable {T} {start s : SpeedTarget} {t : Tick}

theorem traced_run (hstart : start.limitKph = none) (pre : List Tick) :
    Traced T start pre (Run.run (update T) start pre) := by
  induction pre using List.reverseRecOn with
  | nil =>
    intro limitKph hlimit
    rw [Run.run_nil, hstart] at hlimit
    cases hlimit
  | append_singleton pre t ih =>
    intro limitKph hlimit
    rw [Run.run_snoc] at hlimit ⊢
    cases (update_updated (T := T) (Run.run (update T) start pre) t).limit with
    | matched r hacc hnew hinf hgood =>
      rw [hlimit, Option.some.injEq] at hnew
      exact ⟨pre, t, [], r, rfl, hacc, hnew.symm, hinf.symm, hgood⟩
    | old hold hinf hgood =>
      rcases hold with hsame | hnone
      · rw [hsame] at hlimit
        obtain ⟨earlier, t', later, r, rfl, hacc, hlim, hinf', hgood'⟩ := ih limitKph hlimit
        refine ⟨earlier, t', later ++ [t], r, by simp, hacc, hlim, ?_, ?_⟩
        · rw [hinf, hinf']
        · rw [hgood, hgood']
      · rw [hnone] at hlimit
        cases hlimit

/-- What is turned down is not believed. -/
theorem accepted_of_rejected {r : Road} (h : s.rejected T t = some r) : s.accepted T t = none := by
  obtain ⟨hanswer, hbad⟩ := Option.filter_eq_some_iff.1 h
  rw [accepted, hanswer]
  simp [Option.filter, hbad]

theorem aim_of_rejected {r : Road} (h : s.rejected T t = some r) :
    s.aim T t =
      match s.heldLimit T t.now with
      | some limitKph => s.targetFor T limitKph s.inferred
      | none => pyMin T.fallbackKph s.vMaxKph := by
  rw [aim, accepted_of_rejected h]

/-- A limit that a run holds was believed within the hold. The clock of an unset `lastGoodT` is too
far back for that. -/
theorem remembered_of_heldLimit (hhold : pyLe (PyFloat.ofInt 1000000000) T.holdS = false)
    (hstart : start.limitKph = none) (pre : List Tick) {now limitKph : Double}
    (h : (Run.run (update T) start pre).heldLimit T now = some limitKph) :
    Remembered T start pre now limitKph (Run.run (update T) start pre).inferred := by
  obtain ⟨hlimit, hheld⟩ := Option.filter_eq_some_iff.1 h
  have hheld : pyLe ((Run.run (update T) start pre).heldFor now) T.holdS = true := by
    simpa using hheld
  obtain ⟨earlier, t, later, r, hpre, hacc, hlim, hinf, hgood⟩ :=
    traced_run hstart pre limitKph hlimit
  refine ⟨earlier, t, later, r, hpre, hacc, hlim, hinf, ?_⟩
  unfold heldFor at hheld
  split at hheld
  · rwa [hgood] at hheld
  · rw [hhold] at hheld
    cases hheld

theorem neverHarder_of_cushioned (hhold : pyLe (PyFloat.ofInt 1000000000) T.holdS = false)
    (hstart : start.limitKph = none)
    {pre : List Tick} (h : (Run.run (update T) start pre).Cushioned T t) :
    NeverHarder T start pre t := by
  intro r hrej
  have haim := aim_of_rejected hrej
  cases hheld : (Run.run (update T) start pre).heldLimit T t.now with
  | some limitKph =>
    rw [hheld] at haim
    exact .inr ⟨limitKph, _, remembered_of_heldLimit hhold hstart pre hheld, haim⟩
  | none =>
    rw [hheld] at haim
    rcases h r hrej with hsome | hfallback
    · rw [hheld] at hsome
      cases hsome
    · rw [haim]
      exact .inl hfallback

/-- What is turned down is a number. -/
theorem isNan_of_rejected {r : Road} (h : s.rejected T t = some r) :
    PyFloat.isNan r.limitKph = false := by
  obtain ⟨-, hbad⟩ := Option.filter_eq_some_iff.1 h
  unfold badInferred at hbad
  split at hbad
  · rw [Bool.and_eq_true] at hbad
    exact (Double.pyLe_iff.1 (Double.pyLe_of_lt hbad.2)).2.1
  · cases hbad

theorem isNan_targetFor (hnum : T.Numbers) {limitKph : Double} {inferred : Bool}
    (h : PyFloat.isNan limitKph = false) :
    PyFloat.isNan (s.targetFor T limitKph inferred) = false := by
  have hscaled : PyFloat.isNan
      (limitKph * (if inferred then T.inferredScale else PyFloat.ofInt 1)) = false := by
    cases inferred with
    | false => exact Double.isNan_mul h ofInt_1 one_ne_zero
    | true =>
      obtain ⟨q, hq, hne⟩ := hnum.inferredScale
      exact Double.isNan_mul h hq hne
  refine Double.isNan_pyMin ?_
  cases s.mads with
  | false =>
    obtain ⟨q, hq⟩ := hnum.stdOverKph
    exact Double.isNan_add hscaled hq
  | true =>
    obtain ⟨q, hq⟩ := hnum.madsOverKph
    exact Double.isNan_add hscaled hq

/-- Without a cushion a limit that is turned down would have asked for more than the fallback. -/
theorem aim_lt_of_not_cushioned (hnum : T.Numbers) (h : ¬ s.Cushioned T t) :
    ∃ r, s.rejected T t = some r ∧
      PyFloat.lt (s.aim T t) (s.targetFor T r.limitKph r.inferred) = true := by
  unfold Cushioned at h
  push Not at h
  obtain ⟨r, hrej, hheld, hlow⟩ := h
  have haim := aim_of_rejected hrej
  have hnone : s.heldLimit T t.now = none := by simpa using hheld
  rw [hnone] at haim
  refine ⟨r, hrej, ?_⟩
  rw [haim]
  by_contra hle
  exact hlow (Double.pyLe_iff.2 ⟨by simpa using hle, isNan_targetFor hnum (isNan_of_rejected hrej),
    Double.isNan_pyMin hnum.fallbackKph⟩)

end SpeedTarget

/-- A run turns no limit down for something harder as long as in each of its calls a limit is held
or the fallback is no lower than what is turned down, and a call without either does brake harder
than the limit would have. -/
theorem rejected_of_cushioned (hnum : T.Numbers)
    (hhold : pyLe (PyFloat.ofInt 1000000000) T.holdS = false) (mads : Bool)
    (vMaxKph : Double) (sourced : Bool) (ticks : List Tick) :
    (Run.AllSteps (SpeedTarget.update T) (SpeedTarget.Cushioned T)
        (.init T mads vMaxKph sourced) ticks →
      ∀ pre t, pre ++ [t] <+: ticks →
        SpeedTarget.NeverHarder T (.init T mads vMaxKph sourced) pre t) ∧
      ∀ pre t, pre ++ [t] <+: ticks →
        let s := Run.run (SpeedTarget.update T) (.init T mads vMaxKph sourced) pre
        ¬ s.Cushioned T t → ∃ r, s.rejected T t = some r ∧
          PyFloat.lt (s.aim T t) (s.targetFor T r.limitKph r.inferred) = true := by
  constructor
  · intro h pre t hpre
    have hcushion := (Run.allSteps_iff_forall _).1 h pre t hpre
    exact SpeedTarget.neverHarder_of_cushioned hhold rfl hcushion
  · intro pre t _ s h
    exact SpeedTarget.aim_lt_of_not_cushioned hnum h

/-- A road of 60 km/h believed at 50 km/h. -/
def believed : Tick where
  now := PyFloat.ofInt 1000
  vEgoKph := some (PyFloat.ofInt 50)
  fix := some ⟨PyFloat.ofInt 41, PyFloat.ofInt (-74), none⟩
  lookup := fun _ _ _ => some ⟨.of (.fin (50 / 3)), true, "tertiary"⟩

/-- Ten seconds later one of 30 turned down at 95. -/
def doubted : Tick where
  now := PyFloat.ofInt 1010
  vEgoKph := some (PyFloat.ofInt 95)
  fix := some ⟨PyFloat.ofInt 41, PyFloat.ofInt (-74), none⟩
  lookup := fun _ _ _ => some ⟨.of (.fin (25 / 3)), true, "service"⟩

/-- The second call holds the limit of the first. -/
theorem believed_held :
    SpeedTarget.NeverHarder tuning (.init tuning false (PyFloat.ofInt 120) true) [believed]
      doubted := by
  refine (rejected_of_cushioned tuning tuning_numbers (by decide +kernel) false
    (PyFloat.ofInt 120) true [believed, doubted]).1 ?_ [believed] doubted (List.prefix_refl _)
  refine ⟨?_, ?_, trivial⟩
  · intro r hrej
    obtain ⟨hanswer, hbad⟩ := Option.filter_eq_some_iff.1 hrej
    cases hanswer
    exact absurd hbad (by decide +kernel)
  · intro r _
    exact .inl (by decide +kernel)

/-- A first match on a road of 60 km/h that nobody has surveyed, at 95 km/h. -/
def firstGuess : Tick where
  now := PyFloat.ofInt 1000
  vEgoKph := some (PyFloat.ofInt 95)
  fix := some ⟨PyFloat.ofInt 41, PyFloat.ofInt (-74), none⟩
  lookup := fun _ _ _ => some ⟨.of (.fin (50 / 3)), true, "tertiary"⟩

/-- It is turned down for the 40 km/h of the fallback, where the limit would have come to 70. -/
theorem firstGuess_harder :
    ¬ SpeedTarget.NeverHarder tuning (.init tuning false (PyFloat.ofInt 120) true) []
      firstGuess := by
  intro h
  have hrej : (SpeedTarget.init tuning false (PyFloat.ofInt 120) true).rejected tuning firstGuess =
      some ⟨.of (.fin (50 / 3)), true, "tertiary"⟩ := by
    rw [SpeedTarget.rejected, Option.filter_eq_some_iff]
    exact ⟨rfl, by decide +kernel⟩
  rcases h _ hrej with hle | ⟨limitKph, inferred, ⟨earlier, t, later, r, hnil, -⟩, -⟩
  · revert hle
    decide +kernel
  · simp at hnil

end SpeedLimits
end MazdaPort
