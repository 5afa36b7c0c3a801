import MazdaPort.Lib.Text
import MazdaPort.SpeedLimits.Double

/-!
# MazdaPort.SpeedLimits.MaxSpeed

`parse_maxspeed` of `build_speed_limit_index.py`: the text of a `maxspeed` tag to metres per second.

The guard, "200 km/h covers any real posting", looks at the numeral before its unit is applied.
`sane_iff`: a limit is positive and at most 200 km/h exactly when the text is not in miles per hour
with a number from 124.27 to 200, and its number is not read as the least positive double.
-/

namespace MazdaPort
namespace SpeedLimits

open Gps (PyFloat pyFloat)
open Rounding (Format)
open Text (strip firstWord remove)

/-! ## Text -/

/-- `str.isspace` -/
def isBlank (c : Char) : Bool :=
  let n := c.toNat
  (9 ≤ n && n ≤ 13) || (28 ≤ n && n ≤ 32) || n == 0x85 || n == 0xA0 || n == 0x1680 ||
    (0x2000 ≤ n && n ≤ 0x200A) || n == 0x2028 || n == 0x2029 || n == 0x202F || n == 0x205F ||
    n == 0x3000

def isAscii (c : Char) : Bool := c.toNat < 128

/-- The interpreter's tables for the characters beyond ASCII. The lower case of one may depend on
the text before it (reversed) and after it, as that of a final sigma does. -/
structure Unicode where
  lower : List Char → Char → List Char → List Char
  lower_blank : ∀ before c after, isBlank c → lower before c after = [c]
  isDigit : Char → Bool
  decimal : Char → Option (Fin 10)

section Text

variable (tables : Unicode)

def lowerFrom : List Char → List Char → List Char
  | _, [] => []
  | before, c :: s =>
    (if isAscii c then [c.toLower] else tables.lower before c s) ++ lowerFrom (c :: before) s

/-- `str.lower` -/
def lower (s : List Char) : List Char := lowerFrom tables [] s

/-- `str.isdigit` of one character. -/
def isDigit (c : Char) : Bool := if isAscii c then c.isDigit else tables.isDigit c

/-- What `float` makes of a character before it reads the text. -/
def toAscii (c : Char) : Char :=
  if isAscii c then c
  else if isBlank c then ' '
  else
    match tables.decimal c with
    | some d => Char.ofNat ('0'.toNat + d)
    | none => '?'

end Text

/-! ## `parse_maxspeed` -/

inductive Scale where
  | kph
  | mph
  deriving DecidableEq, Repr

section Parse

variable {F : Type} [PyFloat F] (tables : Unicode)

/-- `MPH_TO_MPS` and `KPH_TO_MPS`. -/
def Scale.mult : Scale → F
  | .kph => PyFloat.ofText (.decimal false 10 (-1)) / PyFloat.ofText (.decimal false 36 (-1))
  | .mph => PyFloat.ofText (.decimal false 44704 (-5))

/-- The multiplier, and the text without the unit. -/
def readUnit (s : List Char) : Scale × List Char :=
  if "mph".toList <:+: s then (.mph, remove "mph".toList s)
  else if "km/h".toList <:+: s ∨ "kmh".toList <:+: s ∨ "kph".toList <:+: s then
    (.kph, remove "kph".toList (remove "kmh".toList (remove "km/h".toList s)))
  else (.kph, s)

def readNumber (s : List Char) : Option F :=
  match strip isBlank s with
  | [] => none
  | c :: s =>
    if isDigit tables c then
      match pyFloat ((firstWord isBlank (c :: s)).map (toAscii tables)) with
      | .ok v => some v
      | .error _ => none
    else none

def noLimit : List (List Char) :=
  ["none".toList, "signals".toList, "variable".toList, "unposted".toList]

def outOfRange (v : F) : Bool := pyLe v (PyFloat.ofInt 0) || PyFloat.lt (PyFloat.ofInt 200) v

def parseMaxspeed (raw : List Char) : Option F :=
  if raw = [] then none
  else
    let s := lower tables (strip isBlank raw)
    if s ∈ noLimit then none
    else if s = "walk".toList then some (PyFloat.ofInt 7 * Scale.mult .mph)
    else
      let (scale, s) := readUnit s
      match readNumber tables s with
      | none => none
      | some v => if outOfRange v then none else some (v * scale.mult)

end Parse

def plainTables : Unicode :=
  { lower := fun _ c _ => [c]
    lower_blank := fun _ _ _ _ => rfl
    isDigit := fun _ => false
    decimal := fun _ => none }

example : readUnit "100 km/h".toList = (.kph, "100 ".toList) := rfl

example : (parseMaxspeed plainTables "RU:urban".toList : Option Double) = none := rfl

/-! ## What `float` reads from a digit on -/

section FloatText

open Gps

/-- The first character of a numeral, after `toAscii`: a digit, or one that `float` refuses. -/
def Leads (c : Char) : Prop := c.isDigit ∨ c = '?'

variable {c : Char} {s : List Char}

theorem Leads.ne (h : Leads c) {d : Char} (hdigit : d.isDigit = false) (hmark : d ≠ '?') :
    c ≠ d := by
  rintro rfl
  rcases h with h | h
  · rw [hdigit] at h
    cases h
  · exact hmark h

theorem Leads.not_space (h : Leads c) : ¬ isSpace c = true := by
  have hblank : c ≠ ' ' := h.ne rfl (by simp)
  have hlarge : 13 < c.toNat := by
    rcases h with h | rfl
    · have hlow : '0'.toNat ≤ c.toNat := (Char.isDigit_iff_toNat.1 h).1
      exact lt_of_lt_of_le (by decide) hlow
    · decide
  simp only [isSpace, hblank, decide_false, Bool.false_or, Bool.and_eq_true, decide_eq_true_eq,
    not_and, not_le]
  intro _
  exact hlarge

theorem toLower_of_lt (h : c.toNat < 'A'.toNat) : c.toLower = c := by
  have hnot : ¬ (c.val ≥ 'A'.val ∧ c.val ≤ 'Z'.val) := by
    rintro ⟨hlow, -⟩
    exact absurd (UInt32.le_iff_toNat_le.1 hlow) (not_le.2 h)
  unfold Char.toLower
  rw [dif_neg hnot]

theorem Leads.toLower (h : Leads c) : c.toLower = c := by
  apply toLower_of_lt
  rcases h with h | rfl
  · have hhigh : c.toNat ≤ '9'.toNat := (Char.isDigit_iff_toNat.1 h).2
    exact lt_of_le_of_lt hhigh (by decide)
  · decide

/-- There is no sign, and no special value: a decimal, or nothing. -/
theorem floatText_leads (h : Leads c) {t : FloatText} (ht : floatText (c :: s) = some t) :
    ∃ m e, t = .decimal false m e := by
  obtain ⟨s', hs'⟩ : ∃ s', Gps.strip (c :: s) = c :: s' := Text.strip_cons h.not_space
  have hsigned : signed (c :: s') = (false, c :: s') := by
    have hminus : c ≠ '-' := h.ne rfl (by simp)
    have hplus : c ≠ '+' := h.ne rfl (by simp)
    unfold signed
    split
    · next heq => exact absurd (List.cons.inj heq).1 hminus
    · next heq => exact absurd (List.cons.inj heq).1 hplus
    · rfl
  have hgroup : ungroup '+' (c :: s') = (ungroup c s').map (c :: ·) := by
    have hbar : c ≠ '_' := h.ne rfl (by simp)
    simp [ungroup, hbar]
  have hword : ∀ w w' : List Char, (c :: w).map Char.toLower = 'i' :: w' ∨
      (c :: w).map Char.toLower = 'n' :: w' → False := by
    intro w w' heq
    rw [List.map_cons, h.toLower] at heq
    rcases heq with heq | heq
    · exact h.ne rfl (by simp) (List.cons.inj heq).1
    · exact h.ne rfl (by simp) (List.cons.inj heq).1
  unfold floatText at ht
  rw [hs', hsigned] at ht
  dsimp only at ht
  rw [hgroup, Option.bind_map] at ht
  obtain ⟨w, -, hw⟩ := Option.bind_eq_some_iff.1 ht
  dsimp only [Function.comp] at hw
  rw [if_neg, if_neg] at hw
  · unfold decimalText at hw
    dsimp only at hw
    split at hw
    · cases hw
      exact ⟨_, _, rfl⟩
    · cases hw
  · intro hnan
    exact hword w _ (.inr hnan)
  · rintro (hinf | hinf)
    · exact hword w _ (.inl hinf)
    · exact hword w _ (.inl hinf)

end FloatText

/-! ## The numeral -/

section Numeral

variable {F : Type} [PyFloat F] (tables : Unicode)

/-- What the guard is asked about: the number of the text, and the scale it will be taken in. -/
def numeral (raw : List Char) : Option (Scale × F) :=
  let (scale, s) := readUnit (lower tables (strip isBlank raw))
  (readNumber tables s).map fun v => (scale, v)

/-- The words that stand for no number have none. -/
theorem readNumber_word {s : List Char} (h : s ∈ "walk".toList :: noLimit) :
    (readNumber tables (readUnit s).2 : Option F) = none := by
  simp only [noLimit, List.mem_cons, List.not_mem_nil, or_false] at h
  rcases h with rfl | rfl | rfl | rfl | rfl <;> rfl

theorem numeral_word {raw : List Char}
    (h : lower tables (strip isBlank raw) ∈ "walk".toList :: noLimit) :
    (numeral tables raw : Option (Scale × F)) = none := by
  unfold numeral
  dsimp only
  rw [readNumber_word tables h]
  rfl

theorem parseMaxspeed_eq (raw : List Char) :
    (parseMaxspeed tables raw : Option F) =
      if lower tables (strip isBlank raw) = "walk".toList then
        some (PyFloat.ofInt 7 * Scale.mult .mph)
      else
        (numeral tables raw).bind fun r =>
          if outOfRange r.2 then none else some (r.2 * r.1.mult) := by
  unfold parseMaxspeed
  split
  · next hempty =>
    rw [hempty]
    rfl
  · dsimp only
    split
    · next hnone =>
      have hwalk : lower tables (strip isBlank raw) ≠ "walk".toList := by
        intro heq
        rw [heq] at hnone
        exact absurd hnone (by decide)
      rw [if_neg hwalk, numeral_word tables (List.mem_cons_of_mem _ hnone)]
      rfl
    · split
      · rfl
      · unfold numeral
        dsimp only
        cases readNumber (F := F) tables (readUnit (lower tables (strip isBlank raw))).2 <;> rfl

theorem leads_toAscii {c : Char} (hdigit : isDigit tables c) (hblank : ¬ isBlank c) :
    Leads (toAscii tables c) := by
  unfold isDigit at hdigit
  unfold toAscii
  split
  · next hascii =>
    rw [if_pos hascii] at hdigit
    exact .inl hdigit
  · split
    · next d _ =>
      have hten : ∀ d : Fin 10, (Char.ofNat ('0'.toNat + d)).isDigit := by decide
      exact .inl (hten d)
    · exact .inr rfl

theorem readNumber_decimal {s : List Char} {v : F} (h : readNumber tables s = some v) :
    ∃ m e, v = PyFloat.ofText (.decimal false m e) := by
  unfold readNumber at h
  split at h
  · cases h
  · next c s' hstrip =>
    have hblank : ¬ isBlank c := Text.head_strip hstrip
    obtain ⟨w, hw⟩ := Text.firstWord_cons (s := s') hblank
    split at h
    · next hdigit =>
      rw [hw, List.map_cons] at h
      unfold pyFloat at h
      cases htext : Gps.floatText (toAscii tables c :: w.map (toAscii tables)) with
      | none =>
        rw [htext] at h
        cases h
      | some t =>
        obtain ⟨m, e, rfl⟩ := floatText_leads (leads_toAscii tables hdigit hblank) htext
        rw [htext] at h
        cases h
        exact ⟨m, e, rfl⟩
    · cases h

theorem numeral_decimal {raw : List Char} {scale : Scale} {v : F}
    (h : numeral tables raw = some (scale, v)) :
    ∃ m e, v = PyFloat.ofText (.decimal false m e) := by
  obtain ⟨u, hu, heq⟩ := Option.map_eq_some_iff.1 h
  cases heq
  exact readNumber_decimal tables hu

/-- The double of a text is the one nearest to its number. -/
theorem readNumber_double (s : List Char) :
    (readNumber tables s : Option Double) = (readNumber tables s).map Double.of := by
  unfold readNumber
  cases strip isBlank s with
  | nil => rfl
  | cons c s =>
    dsimp only
    split
    · unfold pyFloat
      cases Gps.floatText ((firstWord isBlank (c :: s)).map (toAscii tables)) <;> rfl
    · rfl

theorem numeral_double (raw : List Char) :
    (numeral tables raw : Option (Scale × Double)) =
      (numeral tables raw).map fun r => (r.1, .of r.2) := by
  unfold numeral
  dsimp only
  rw [readNumber_double, Option.map_map, Option.map_map]
  rfl

end Numeral

/-! ## In metres per second -/

/-- The multiplier, a double. -/
def Scale.factor : Scale → ℚ
  | .kph => 2501999792983609 / 2 ^ 53
  | .mph => 4026578354839413 / 2 ^ 53

theorem Scale.factor_bounds (scale : Scale) : 1 / 4 < scale.factor ∧ scale.factor ≤ 1 / 2 := by
  cases scale <;> norm_num [Scale.factor]

/-- 200 km/h, as Python computes `200 / 3.6`. -/
def limit : Double := PyFloat.ofInt 200 / PyFloat.ofText (.decimal false 36 (-1))

/-- The double nearest to 200 km/h in miles per hour. -/
def limitMph : Double := .of (.fin (200 / 3.6 / 0.44704))

def leastDouble : Double := .of (.fin (2 ^ (-1074 : ℤ)))

/-- The doubles that the code multiplies by, and those that the guard and the results compare
with. -/
theorem landmarks :
    (Scale.kph.mult : Double).val = .fin (Scale.factor .kph) ∧
      (Scale.mph.mult : Double).val = .fin (Scale.factor .mph) ∧
      (PyFloat.ofInt 200 : Double).val = .fin 200 ∧
      limit.val = .fin (3909374676536889 / 2 ^ 46) ∧
      limitMph.val = .fin (8745022093183807 / 2 ^ 46) ∧
      leastDouble.val = .fin (2 ^ (-1074 : ℤ)) := by
  decide +kernel

theorem Scale.mult_val (scale : Scale) : (scale.mult : Double).val = .fin scale.factor := by
  cases scale with
  | kph => exact landmarks.1
  | mph => exact landmarks.2.1

theorem ofInt_200 : (PyFloat.ofInt 200 : Double).val = .fin 200 := landmarks.2.2.1

theorem limit_val : limit.val = .fin (3909374676536889 / 2 ^ 46) := landmarks.2.2.2.1

theorem limitMph_val : limitMph.val = .fin (8745022093183807 / 2 ^ 46) := landmarks.2.2.2.2.1

theorem leastDouble_val : leastDouble.val = .fin (2 ^ (-1074 : ℤ)) := landmarks.2.2.2.2.2

/-- No speed, or one above 0 and at most 200 km/h. -/
def Sane (r : Option Double) : Prop := ∀ v ∈ r, PyFloat.lt (PyFloat.ofInt 0) v ∧ pyLe v limit

/-- A numeral that passes the guard and should not: the least positive double, whose product is
rounded to zero, and one in miles per hour that is more than 200 km/h. -/
def Slips (scale : Scale) (v : Double) : Prop :=
  v = leastDouble ∨
    (scale = .mph ∧ PyFloat.lt limitMph v ∧ pyLe v (PyFloat.ofInt 200))

section Speed

variable {v : Double} {q : ℚ}

theorem outOfRange_fin (hv : v.val = .fin q) :
    outOfRange v = false ↔ 0 < q ∧ q ≤ 200 := by
  unfold outOfRange
  rw [pyLe_fin hv ofInt_0, lt_fin ofInt_200 hv]
  simp

theorem lt_inf (hv : v.val = .inf false) : PyFloat.lt (PyFloat.ofInt 200) v = true := by
  show (PyFloat.ofInt 200 : Double).val.lt v.val = true
  rw [ofInt_200, hv]
  rfl

theorem outOfRange_inf (hv : v.val = .inf false) : outOfRange v = true := by
  unfold outOfRange
  rw [lt_inf hv, Bool.or_true]

theorem decimal_val (m : Nat) (e : Int) :
    (∃ q, (PyFloat.ofText (.decimal false m e) : Double).val = .fin q) ∨
      (PyFloat.ofText (.decimal false m e) : Double).val = .inf false := by
  have hval : (PyFloat.ofText (.decimal false m e) : Double).val =
      roundExact (.fin (m * (10 : ℚ) ^ e)) := rfl
  rw [roundExact] at hval
  split at hval
  · have hpos : ¬ (m : ℚ) * (10 : ℚ) ^ e < 0 :=
      not_lt.2 (mul_nonneg (Nat.cast_nonneg m) (zpow_nonneg (by norm_num) e))
    rw [decide_eq_false hpos] at hval
    exact .inr hval
  · exact .inl ⟨_, hval⟩

/-- What slips through the guard has passed it. -/
theorem Slips.inRange {scale : Scale} (h : Slips scale v)
    (hv : (∃ q, v.val = .fin q) ∨ v.val = .inf false) : outOfRange v = false := by
  rcases h with rfl | ⟨-, hmore, hmax⟩
  · decide +kernel
  · rcases hv with ⟨q, hv⟩ | hv
    · rw [lt_fin limitMph_val hv, decide_eq_true_eq] at hmore
      rw [pyLe_fin hv ofInt_200, decide_eq_true_eq] at hmax
      exact (outOfRange_fin hv).2 ⟨lt_trans (by norm_num) hmore, hmax⟩
    · unfold pyLe at hmax
      rw [lt_inf hv] at hmax
      cases hmax

variable (hv : v.val = .fin q) (hpos : 0 < q) (hmax : q ≤ 200)

include hv hpos hmax

theorem product_val (scale : Scale) :
    (v * scale.mult).val = .fin (binary64.round (q * scale.factor)) := by
  obtain ⟨hlow, hhigh⟩ := scale.factor_bounds
  refine mul_fin hv scale.mult_val ?_ ?_
  · exact mul_nonneg hpos.le (by linarith)
  · calc q * scale.factor ≤ 200 * (1 / 2) :=
          mul_le_mul hmax hhigh (by linarith) (by norm_num)
      _ ≤ 1024 := by norm_num

omit hmax in
theorem product_pos_iff (scale : Scale) :
    0 < binary64.round (q * scale.factor) ↔ v ≠ leastDouble := by
  obtain ⟨hlow, hhigh⟩ := scale.factor_bounds
  have hleast : v = leastDouble ↔ q = 2 ^ (-1074 : ℤ) := by
    rw [Double.ext_iff, hv, leastDouble_val]
    exact ⟨fun heq => Gps.Exact.fin.inj heq, congrArg _⟩
  have htiny : (0 : ℚ) < 2 ^ (-1074 : ℤ) := Format.unit_pos _
  have hhalf : (2 : ℚ) ^ ((-1074 : ℤ) - 1) = 1 / 2 * 2 ^ (-1074 : ℤ) := by
    rw [zpow_sub_one₀ (by norm_num)]
    ring
  -- a double is a multiple of the least one
  obtain ⟨m, hm⟩ := binary64.round_multiple (q := q) (k := -1074) (le_max_right _ _)
  rw [round_val hv] at hm
  rw [hm] at hpos ⊢
  have hm1 : 1 ≤ m := by
    have hcast : (0 : ℚ) < m := (mul_pos_iff_of_pos_right htiny).1 hpos
    exact_mod_cast hcast
  rw [binary64.round_pos_iff (mul_nonneg hpos.le (by linarith)), ne_eq, hleast, hm]
  show (2 : ℚ) ^ ((-1074 : ℤ) - 1) < m * 2 ^ (-1074 : ℤ) * scale.factor ↔ _
  rw [hhalf]
  rcases hm1.lt_or_eq with htwo | hone
  · have hcast : (2 : ℚ) ≤ m := by exact_mod_cast htwo
    constructor
    · intro _ heq
      have hone : (m : ℚ) = 1 := by
        have hcancel : (m : ℚ) * 2 ^ (-1074 : ℤ) = 1 * 2 ^ (-1074 : ℤ) := by rw [heq, one_mul]
        exact mul_right_cancel₀ htiny.ne' hcancel
      linarith
    · intro _
      have hbig : 1 / 2 < (m : ℚ) * scale.factor := by nlinarith
      calc 1 / 2 * (2 : ℚ) ^ (-1074 : ℤ) < m * scale.factor * 2 ^ (-1074 : ℤ) :=
            mul_lt_mul_of_pos_right hbig htiny
        _ = m * 2 ^ (-1074 : ℤ) * scale.factor := by ring
  · subst hone
    simp only [Int.cast_one, one_mul, not_true_eq_false, iff_false, not_lt]
    calc (2 : ℚ) ^ (-1074 : ℤ) * scale.factor ≤ 2 ^ (-1074 : ℤ) * (1 / 2) :=
          mul_le_mul_of_nonneg_left hhigh htiny.le
      _ = 1 / 2 * 2 ^ (-1074 : ℤ) := by ring

omit hpos hmax in
/-- The double after `limitMph`. -/
theorem above_limitMph (h : 8745022093183807 / 2 ^ 46 < q) : 8745022093183808 / 2 ^ 46 ≤ q := by
  have hpos : 0 < q := lt_trans (by norm_num) h
  have hq64 : 64 ≤ q := by
    norm_num at h
    linarith
  have hunit : -46 ≤ binary64.unit |q| := by
    rw [abs_of_pos hpos]
    apply binary64.le_unit
    show (2 : ℚ) ^ ((-46 : ℤ) + (52 : ℕ)) ≤ q
    norm_num
    exact hq64
  obtain ⟨m, hm⟩ := binary64.round_multiple hunit
  have hq : q = m / 2 ^ 46 := by
    rw [← round_val hv, hm, zpow_neg, div_eq_mul_inv]
    norm_cast
  rw [hq] at h ⊢
  have hstep : (8745022093183807 : ℤ) < m := by
    have hcast := (div_lt_div_iff_of_pos_right (by norm_num : (0 : ℚ) < 2 ^ 46)).1 h
    exact_mod_cast hcast
  have hnext : (8745022093183808 : ℚ) ≤ m := by exact_mod_cast hstep
  exact div_le_div_of_nonneg_right hnext (by norm_num)

omit hpos in
theorem product_le_iff (scale : Scale) :
    binary64.round (q * scale.factor) ≤ 3909374676536889 / 2 ^ 46 ↔
      ¬ (scale = .mph ∧ 8745022093183807 / 2 ^ 46 < q) := by
  have hmono : ∀ {a b : ℚ}, a ≤ b →
      binary64.round (a * scale.factor) ≤ binary64.round (b * scale.factor) := by
    intro a b hab
    have hfactor : 0 ≤ scale.factor := by
      have hlow := scale.factor_bounds.1
      linarith
    exact binary64.round_mono (mul_le_mul_of_nonneg_right hab hfactor)
  cases scale with
  | kph =>
    have htop : binary64.round (200 * Scale.factor .kph) ≤ 3909374676536889 / 2 ^ 46 := by
      decide +kernel
    simp only [reduceCtorEq, false_and, not_false_eq_true, iff_true]
    exact (hmono hmax).trans htop
  | mph =>
    simp only [true_and, not_lt]
    constructor
    · intro hle
      by_contra hgt
      have hnext := hmono (above_limitMph hv (not_le.1 hgt))
      have hmore : (3909374676536889 / 2 ^ 46 : ℚ) <
          binary64.round (8745022093183808 / 2 ^ 46 * Scale.factor .mph) := by
        decide +kernel
      exact absurd (hnext.trans hle) (not_le.2 hmore)
    · intro hle
      have hat : binary64.round (8745022093183807 / 2 ^ 46 * Scale.factor .mph) ≤
          3909374676536889 / 2 ^ 46 := by
        decide +kernel
      exact (hmono hle).trans hat

theorem sane_product (scale : Scale) : Sane (some (v * scale.mult)) ↔ ¬ Slips scale v := by
  have hprod := product_val hv hpos hmax scale
  have hslips : Slips scale v ↔
      v = leastDouble ∨ (scale = .mph ∧ 8745022093183807 / 2 ^ 46 < q) := by
    unfold Slips
    rw [lt_fin limitMph_val hv, pyLe_fin hv ofInt_200]
    simp [hmax]
  have hsane : Sane (some (v * scale.mult)) ↔
      0 < binary64.round (q * scale.factor) ∧
        binary64.round (q * scale.factor) ≤ 3909374676536889 / 2 ^ 46 := by
    unfold Sane
    simp only [Option.mem_some_iff, forall_eq', lt_fin ofInt_0 hprod, pyLe_fin hprod limit_val,
      decide_eq_true_eq]
  rw [hsane, hslips, product_pos_iff hv hpos, product_le_iff hv hmax, not_or]

end Speed

theorem sane_none : Sane none := by
  intro v hv
  cases hv

/-- What comes out of the guard. -/
theorem sane_guarded {v : Double} (h : (∃ q, v.val = .fin q) ∨ v.val = .inf false)
    (scale : Scale) :
    Sane (if outOfRange v then none else some (v * scale.mult)) ↔ ¬ Slips scale v := by
  cases hout : outOfRange v with
  | false =>
    rcases h with ⟨q, hval⟩ | hval
    · obtain ⟨hpos, hmax⟩ := (outOfRange_fin hval).1 hout
      exact sane_product hval hpos hmax scale
    · rw [outOfRange_inf hval] at hout
      cases hout
  | true =>
    constructor
    · intro _ hslip
      rw [hslip.inRange h] at hout
      cases hout
    · intro _
      exact sane_none

/-- A limit is sane exactly when the number of the text, taken as a double, does not slip through
the guard. -/
theorem sane_iff (tables : Unicode) (raw : List Char) :
    Sane (parseMaxspeed tables raw) ↔
      ∀ scale q, numeral tables raw = some (scale, Gps.Exact.fin q) →
        ¬ Slips scale (.of (.fin q)) := by
  rw [parseMaxspeed_eq]
  split
  · next hwalk =>
    have hnone : (numeral tables raw : Option (Scale × Gps.Exact)) = none := by
      apply numeral_word
      rw [hwalk]
      exact List.mem_cons_self
    have hsane : Sane (some (PyFloat.ofInt 7 * Scale.mult .mph)) := by
      intro v hv
      cases hv
      decide +kernel
    simp [hsane, hnone]
  · rw [numeral_double]
    cases hnum : (numeral tables raw : Option (Scale × Gps.Exact)) with
    | none =>
      constructor
      · intro _ scale q hq
        cases hq
      · intro _
        exact sane_none
    | some r =>
      obtain ⟨scale, x⟩ := r
      obtain ⟨m, e, hx⟩ := numeral_decimal tables hnum
      obtain ⟨q, rfl⟩ : ∃ q, x = .fin q := ⟨_, hx⟩
      have hslips : (∀ scale' q', some (scale, Gps.Exact.fin q) = some (scale', .fin q') →
          ¬ Slips scale' (.of (.fin q'))) ↔ ¬ Slips scale (.of (.fin q)) := by
        constructor
        · intro h
          exact h scale q rfl
        · intro h scale' q' heq
          cases heq
          exact h
      rw [hslips]
      have hcases : (∃ p, (Double.of (.fin q)).val = .fin p) ∨
          (Double.of (.fin q)).val = .inf false := by
        rw [hx]
        exact decimal_val m e
      exact sane_guarded hcases scale

end SpeedLimits
end MazdaPort
