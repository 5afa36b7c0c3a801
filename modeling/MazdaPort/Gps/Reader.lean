import MazdaPort.Gps.Nmea

/-!
# MazdaPort.Gps.Reader

`GpsReader` of `gps_reader.py`: `_consume`, `_publish` and `fix`.

A sentence does one of four things to the reader (`Sentence`), whatever its state: `consume_eq`
says that `consume` reads the sentence and then does that.
-/

namespace MazdaPort
namespace Gps

def maxAgeS : ℚ := 3

structure Position (F : Type) where
  lat : F
  lon : F
  quality : Int
  sats : Int
  hdop : F
  altM : F
  deriving DecidableEq

structure Motion (F : Type) where
  speedMps : F
  headingDeg : Option F
  deriving DecidableEq

/-- The `partial` record. Its keys come and go in these two groups. -/
structure PartialFix (F : Type) where
  position : Option (Position F)
  motion : Option (Motion F)
  deriving DecidableEq

structure Fix (F : Type) where
  position : Position F
  motion : Motion F
  t : ℚ
  deriving DecidableEq

/-- `lastFix` and `lastT` are the source's `_fix` and `_t`. -/
structure GpsReader (F : Type) where
  lastFix : Option (Fix F)
  lastT : ℚ
  partialFix : PartialFix F
  deriving DecidableEq

variable {F : Type} [PyFloat F]

namespace GpsReader

def init : GpsReader F :=
  { lastFix := none
    lastT := 0
    partialFix := { position := none, motion := none } }

/-! ## Fields -/

def fields (line : List Char) : List (List Char) := (line.takeWhile (· ≠ '*')).splitOn ','

def field (f : List (List Char)) (i : Nat) : List Char := f.getD i []

def kind (f : List (List Char)) : List Char :=
  if 6 ≤ (field f 0).length then (field f 0).drop 3 else []

def IsGga (f : List (List Char)) : Prop := kind f = "GGA".toList ∧ 9 < f.length

def IsRmc (f : List (List Char)) : Prop := kind f = "RMC".toList ∧ 8 < f.length

instance (f : List (List Char)) : Decidable (IsGga f) := inferInstanceAs (Decidable (_ ∧ _))

instance (f : List (List Char)) : Decidable (IsRmc f) := inferInstanceAs (Decidable (_ ∧ _))

def ggaQuality (f : List (List Char)) : Int :=
  if field f 6 = [] then 0
  else
    match pyInt (field f 6) with
    | .ok q => q
    | .error _ => 0

/-- The update of `partial` by a GGA sentence. The conversions of satellites, dilution and altitude
are not guarded. -/
def ggaPosition (f : List (List Char)) : Except PyError (Option (Position F)) := do
  let lat ← dmToDeg (field f 2) (field f 3)
  let lon ← dmToDeg (field f 4) (field f 5)
  match lat, lon with
  | some lat, some lon => do
    let sats ← if field f 7 = [] then pure 0 else pyInt (field f 7)
    let hdop ← if field f 8 = [] then pure (PyFloat.ofText .nan) else pyFloat (field f 8)
    let altM ← if field f 9 = [] then pure (PyFloat.ofInt 0) else pyFloat (field f 9)
    pure (some ⟨lat, lon, ggaQuality f, sats, hdop, altM⟩)
  | _, _ => pure none

def floatOr (default : F) (s : List Char) : F :=
  match pyFloat s with
  | .ok x => x
  | .error _ => default

def rmcKnots (f : List (List Char)) : F :=
  if field f 7 = [] then PyFloat.ofInt 0 else floatOr (PyFloat.ofInt 0) (field f 7)

def rmcHeading (f : List (List Char)) : Option F :=
  if field f 8 = [] then none
  else
    match pyFloat (field f 8) with
    | .ok x => some x
    | .error _ => none

/-- The update of `partial` by an RMC sentence: no course at a standstill. -/
def rmcMotion (f : List (List Char)) : Motion F :=
  let knots : F := rmcKnots f
  { speedMps := knots * PyFloat.ofText (.decimal false 514444 (-6))
    headingDeg :=
      if PyFloat.lt (PyFloat.ofText (.decimal false 5 (-1))) knots then rmcHeading f else none }

/-! ## Methods -/

def publish (now : ℚ) (s : GpsReader F) : GpsReader F :=
  match s.partialFix.position with
  | none => s
  | some p =>
    let out : Fix F :=
      { position := p
        motion := s.partialFix.motion.getD { speedMps := PyFloat.ofInt 0, headingDeg := none }
        t := now }
    { s with lastFix := some out, lastT := out.t }

def consume (now : ℚ) (line : List Char) (s : GpsReader F) : Except PyError (GpsReader F) :=
  let f := fields line
  if IsGga f then
    if ggaQuality f = 0 then .ok { s with lastFix := none }
    else do
      match ← ggaPosition f with
      | none => pure s
      | some p => pure (publish now { s with partialFix := { s.partialFix with position := some p } })
  else if IsRmc f then
    if field f 2 ≠ ['A'] then .ok s
    else
      let s := { s with partialFix := { s.partialFix with motion := some (rmcMotion f) } }
      if s.partialFix.position.isSome then .ok (publish now s) else .ok s
  else .ok s

def fix (now : ℚ) (s : GpsReader F) : Option (Fix F) :=
  match s.lastFix with
  | none => none
  | some d => if now - s.lastT > maxAgeS then none else some d

omit [PyFloat F] in
theorem fix_eq_some {now : ℚ} {s : GpsReader F} {d : Fix F} :
    s.fix now = some d ↔ s.lastFix = some d ∧ now - s.lastT ≤ maxAgeS := by
  unfold fix
  cases s.lastFix with
  | none => simp
  | some e =>
    by_cases h : now - s.lastT > maxAgeS
    · simp [h, not_le.2 h]
    · simp [h, not_lt.1 h]

end GpsReader

/-! ## Sentences -/

/-- What a sentence says to the reader. -/
inductive Sentence (F : Type) where
  | noFix
  | position (p : Position F)
  | motion (m : Motion F)
  | void
  deriving DecidableEq

namespace Sentence

open GpsReader

/-- A GGA sentence without a fix, a GGA sentence with a position, a valid RMC sentence, or one that
changes nothing. -/
def read (line : List Char) : Except PyError (Sentence F) :=
  let f := fields line
  if IsGga f then
    if ggaQuality f = 0 then .ok noFix
    else (ggaPosition f).map fun p => p.elim void position
  else if IsRmc f then
    if field f 2 = ['A'] then .ok (motion (rmcMotion f)) else .ok void
  else .ok void

def apply (now : ℚ) (s : GpsReader F) : Sentence F → GpsReader F
  | noFix => { s with lastFix := none }
  | position p => publish now { s with partialFix := { s.partialFix with position := some p } }
  | motion m => publish now { s with partialFix := { s.partialFix with motion := some m } }
  | void => s

end Sentence

namespace GpsReader

theorem publish_none (now : ℚ) {s : GpsReader F} (h : s.partialFix.position = none) :
    publish now s = s := by
  simp [publish, h]

theorem publish_some (now : ℚ) {s : GpsReader F} {p : Position F}
    (h : s.partialFix.position = some p) :
    ∃ d, d.position = p ∧ publish now s = { s with lastFix := some d, lastT := now } := by
  simp only [publish, h]
  exact ⟨_, rfl, rfl⟩

theorem publish_partialFix (now : ℚ) (s : GpsReader F) :
    (publish now s).partialFix = s.partialFix := by
  unfold publish
  split <;> rfl

theorem consume_eq (now : ℚ) (line : List Char) (s : GpsReader F) :
    consume now line s = (Sentence.read line).map (Sentence.apply now s) := by
  unfold consume Sentence.read
  by_cases hgga : IsGga (fields line)
  · by_cases hq : ggaQuality (fields line) = 0
    · simp [hgga, hq, Except.map, Sentence.apply]
    · simp only [hgga, hq, if_true, if_false]
      cases ggaPosition (F := F) (fields line) with
      | error e => rfl
      | ok p => cases p with
        | none => rfl
        | some p => rfl
  · by_cases hrmc : IsRmc (fields line)
    · by_cases hA : field (fields line) 2 = ['A']
      · simp only [hgga, hrmc, hA, if_true, if_false, Except.map, Sentence.apply, ne_eq,
          not_true_eq_false]
        split
        · rfl
        · rename_i hnone
          rw [publish_none now (by simpa using hnone)]
      · simp [hgga, hrmc, hA, Except.map, Sentence.apply]
    · simp [hgga, hrmc, Except.map, Sentence.apply]

theorem consume_ok {now : ℚ} {line : List Char} {s s' : GpsReader F}
    (h : consume now line s = .ok s') :
    ∃ x, Sentence.read line = .ok x ∧ s' = Sentence.apply now s x := by
  rw [consume_eq] at h
  cases hx : Sentence.read (F := F) line with
  | error e => simp [hx, Except.map] at h
  | ok x =>
    simp only [hx, Except.map, Except.ok.injEq] at h
    exact ⟨x, rfl, h.symm⟩

end GpsReader

end Gps
end MazdaPort
