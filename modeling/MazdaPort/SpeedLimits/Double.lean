import MazdaPort.Gps.Nmea
import MazdaPort.Lib.Rounding

/-!
# MazdaPort.SpeedLimits.Double

Python's `float`: the exact result of an operation, rounded to binary64. Beyond the greatest double
a result is infinite; the two zeros are one.
-/

namespace MazdaPort
namespace SpeedLimits

open Gps Rounding

/-! ## Values -/

def binary64 : Format := { digits := 52, least := -1074 }

def roundExact : Exact → Exact
  | .fin q =>
    if 2 ^ 1024 ≤ |binary64.round q| then .inf (decide (q < 0)) else .fin (binary64.round q)
  | .inf neg => .inf neg
  | .nan => .nan

@[ext]
structure Double where
  val : Exact
  rounded : ∃ x, val = roundExact x
  deriving DecidableEq

namespace Double

def of (x : Exact) : Double := { val := roundExact x, rounded := ⟨x, rfl⟩ }

instance : PyFloat Double where
  neg a := of a.val.neg
  add a b := of (a.val.add b.val)
  sub a b := of (a.val.add b.val.neg)
  mul a b := of (a.val.mul b.val)
  div a b := of (a.val.div b.val)
  ofText t := of (PyFloat.ofText t)
  ofInt n := of (.fin n)
  isNan a := PyFloat.isNan a.val
  isInf a := PyFloat.isInf a.val
  trunc a := PyFloat.trunc a.val
  lt a b := a.val.lt b.val

end Double

section

variable {F : Type} [PyFloat F]

/-- `a <= b`, which a `nan` on either side makes false. -/
def pyLe (a b : F) : Bool := !PyFloat.lt b a && !PyFloat.isNan a && !PyFloat.isNan b

/-- `min(a, b)`. -/
def pyMin (a b : F) : F := if PyFloat.lt b a then b else a

/-- `max(a, b)`. -/
def pyMax (a b : F) : F := if PyFloat.lt a b then b else a

end

/-! ## Finite values -/

theorem of_fin {q : ℚ} (h0 : 0 ≤ q) (h : q ≤ 1024) :
    (Double.of (.fin q)).val = .fin (binary64.round q) := by
  have hround : binary64.round q ≤ 1024 := by
    have hmono := binary64.round_mono h
    have hfix : binary64.round 1024 = 1024 := by decide +kernel
    rwa [hfix] at hmono
  have hsmall : ¬ (2 : ℚ) ^ 1024 ≤ |binary64.round q| := by
    rw [abs_of_nonneg (binary64.round_nonneg h0), not_le]
    refine hround.trans_lt ?_
    have hpow : (1024 : ℚ) = 2 ^ 10 := by norm_num
    rw [hpow]
    exact pow_lt_pow_right₀ one_lt_two (by norm_num)
  show roundExact (.fin q) = _
  rw [roundExact, if_neg hsmall]

variable {a b : Double} {p q : ℚ}

theorem lt_fin (ha : a.val = .fin p) (hb : b.val = .fin q) : PyFloat.lt a b = decide (p < q) := by
  show a.val.lt b.val = decide (p < q)
  rw [ha, hb]
  rfl

theorem isNan_fin (ha : a.val = .fin p) : PyFloat.isNan a = false := by
  show PyFloat.isNan a.val = false
  rw [ha]
  rfl

theorem pyLe_fin (ha : a.val = .fin p) (hb : b.val = .fin q) : pyLe a b = decide (p ≤ q) := by
  unfold pyLe
  rw [lt_fin hb ha, isNan_fin ha, isNan_fin hb]
  by_cases h : p ≤ q
  · simp [h]
  · simp [h, not_le.1 h]

theorem mul_fin (ha : a.val = .fin p) (hb : b.val = .fin q) (h0 : 0 ≤ p * q) (h : p * q ≤ 1024) :
    (a * b).val = .fin (binary64.round (p * q)) := by
  have hmul : (a * b).val = (Double.of (.fin (p * q))).val := by
    show roundExact (a.val.mul b.val) = roundExact (.fin (p * q))
    rw [ha, hb]
    rfl
  rw [hmul]
  exact of_fin h0 h

@[simp] theorem roundExact_roundExact (x : Exact) : roundExact (roundExact x) = roundExact x := by
  cases x with
  | fin q =>
    by_cases h : 2 ^ 1024 ≤ |binary64.round q|
    · rw [roundExact, if_pos h]
      rfl
    · rw [roundExact, if_neg h, roundExact, binary64.round_round, if_neg h]
  | inf neg => rfl
  | nan => rfl

theorem roundExact_val (a : Double) : roundExact a.val = a.val := by
  obtain ⟨x, hx⟩ := a.rounded
  rw [hx, roundExact_roundExact]

/-- A finite double is rounded. -/
theorem round_val (ha : a.val = .fin p) : binary64.round p = p := by
  have hround := roundExact_val a
  rw [ha, roundExact] at hround
  split at hround
  · cases hround
  · exact Exact.fin.inj hround

/-! ## Order -/

theorem exactLe_fin {p q : ℚ} : pyLe (Exact.fin p) (.fin q) = true ↔ p ≤ q := by
  have hle : pyLe (Exact.fin p) (.fin q) = !decide (q < p) := by
    show (!decide (q < p) && !decide (Exact.fin p = .nan) && !decide (Exact.fin q = .nan)) = _
    simp
  rw [hle]
  simp

/-- Rounding keeps the order, into infinity too. -/
theorem roundExact_mono {x y : Exact} (h : pyLe x y) : pyLe (roundExact x) (roundExact y) := by
  cases x with
  | nan => simp [pyLe, PyFloat.isNan] at h
  | inf neg =>
    cases y with
    | nan => simp [pyLe, PyFloat.isNan] at h
    | inf neg' => exact h
    | fin q =>
      cases neg with
      | false => simp [pyLe, PyFloat.isNan, PyFloat.lt, Exact.lt] at h
      | true =>
        rw [roundExact, roundExact]
        split <;> simp [pyLe, PyFloat.isNan, PyFloat.lt, Exact.lt]
  | fin p =>
    cases y with
    | nan => simp [pyLe, PyFloat.isNan] at h
    | inf neg' =>
      cases neg' with
      | true => simp [pyLe, PyFloat.isNan, PyFloat.lt, Exact.lt] at h
      | false =>
        rw [roundExact, roundExact]
        split <;> simp [pyLe, PyFloat.isNan, PyFloat.lt, Exact.lt]
    | fin q =>
      have hpq : p ≤ q := exactLe_fin.1 h
      have hround := binary64.round_mono hpq
      rw [roundExact, roundExact]
      by_cases hp : 2 ^ 1024 ≤ |binary64.round p|
      · rw [if_pos hp]
        by_cases hq : 2 ^ 1024 ≤ |binary64.round q|
        · rw [if_pos hq]
          have hsign : 0 ≤ q ∨ p < 0 := (le_or_gt 0 q).imp_right hpq.trans_lt
          simpa [pyLe, PyFloat.isNan, PyFloat.lt, Exact.lt] using hsign
        · have hneg : p < 0 := by
            by_contra hpos
            have hnonneg := binary64.round_nonneg (not_lt.1 hpos)
            rw [abs_of_nonneg hnonneg] at hp
            rw [abs_of_nonneg (hnonneg.trans hround)] at hq
            exact hq (hp.trans hround)
          rw [if_neg hq, decide_eq_true hneg]
          simp [pyLe, PyFloat.isNan, PyFloat.lt, Exact.lt]
      · rw [if_neg hp]
        by_cases hq : 2 ^ 1024 ≤ |binary64.round q|
        · have hpos : ¬ q < 0 := by
            intro hneg
            have hnonpos := binary64.round_nonpos hneg.le
            rw [abs_of_nonpos hnonpos] at hq
            rw [abs_of_nonpos (hround.trans hnonpos)] at hp
            exact hp (hq.trans (neg_le_neg hround))
          rw [if_pos hq, decide_eq_false hpos]
          simp [pyLe, PyFloat.isNan, PyFloat.lt, Exact.lt]
        · rw [if_neg hq]
          exact exactLe_fin.2 hround

variable {c : Double}

theorem Double.pyLe_iff : pyLe a b = true ↔
    PyFloat.lt b a = false ∧ PyFloat.isNan a = false ∧ PyFloat.isNan b = false := by
  simp [pyLe, and_assoc]

theorem Double.pyLe_refl (h : PyFloat.isNan a = false) : pyLe a a = true := by
  obtain ⟨x, hx⟩ := a
  cases x with
  | fin q => exact exactLe_fin.2 le_rfl
  | inf neg => cases neg <;> rfl
  | nan => cases h

/-- What is less is a number, and so is what it is less than. -/
theorem Double.pyLe_of_lt (h : PyFloat.lt a b = true) : pyLe a b = true := by
  obtain ⟨x, hx⟩ := a
  obtain ⟨y, hy⟩ := b
  change x.lt y = true at h
  show pyLe x y = true
  cases x <;> cases y <;> simp_all [pyLe, PyFloat.isNan, PyFloat.lt, Exact.lt, le_of_lt]

theorem Double.pyLe_trans (hab : pyLe a b = true) (hbc : pyLe b c = true) : pyLe a c = true := by
  obtain ⟨x, hx⟩ := a
  obtain ⟨y, hy⟩ := b
  obtain ⟨z, hz⟩ := c
  change pyLe x y = true at hab
  change pyLe y z = true at hbc
  show pyLe x z = true
  cases x <;> cases y <;> cases z <;>
    simp_all [pyLe, PyFloat.isNan, PyFloat.lt, Exact.lt]
  case fin.fin.fin => exact hab.trans hbc
  case inf.inf.inf => grind

/-! ## Arithmetic -/

theorem isNan_roundExact (x : Exact) : PyFloat.isNan (roundExact x) = PyFloat.isNan x := by
  cases x with
  | fin q =>
    rw [roundExact]
    split <;> rfl
  | inf neg => rfl
  | nan => rfl

theorem Double.exists_fin (hnan : PyFloat.isNan a = false) (hinf : PyFloat.isInf a = false) :
    ∃ q, a.val = .fin q := by
  change PyFloat.isNan a.val = false at hnan
  change PyFloat.isInf a.val = false at hinf
  cases hval : a.val with
  | fin q => exact ⟨q, rfl⟩
  | inf neg =>
    rw [hval] at hinf
    cases neg <;> cases hinf
  | nan =>
    rw [hval] at hnan
    cases hnan

theorem Double.isNan_add (ha : PyFloat.isNan a = false) (hb : b.val = .fin q) :
    PyFloat.isNan (a + b) = false := by
  show PyFloat.isNan (roundExact (a.val.add b.val)) = false
  change PyFloat.isNan a.val = false at ha
  rw [isNan_roundExact, hb]
  cases hval : a.val with
  | fin p => rfl
  | inf neg => rfl
  | nan =>
    rw [hval] at ha
    cases ha

theorem Double.isNan_mul (ha : PyFloat.isNan a = false) (hb : b.val = .fin q) (hq : q ≠ 0) :
    PyFloat.isNan (a * b) = false := by
  show PyFloat.isNan (roundExact (a.val.mul b.val)) = false
  change PyFloat.isNan a.val = false at ha
  rw [isNan_roundExact, hb]
  cases hval : a.val with
  | fin p => rfl
  | inf neg =>
    rw [Exact.mul, if_neg hq]
    rfl
  | nan =>
    rw [hval] at ha
    cases ha

/-- A `nan` on the right is passed over. -/
theorem Double.isNan_pyMin (ha : PyFloat.isNan a = false) : PyFloat.isNan (pyMin a b) = false := by
  unfold pyMin
  split
  · next hlt => exact (pyLe_iff.1 (pyLe_of_lt hlt)).2.1
  · exact ha

theorem ofInt_0 : (PyFloat.ofInt 0 : Double).val = .fin 0 := by
  show roundExact (.fin ((0 : ℤ) : ℚ)) = .fin 0
  simp [roundExact]

theorem ofInt_1 : (PyFloat.ofInt 1 : Double).val = .fin 1 := by decide +kernel

theorem Double.zero_lt_iff : PyFloat.lt (PyFloat.ofInt 0) a = (Exact.fin 0).lt a.val := by
  show Exact.lt (PyFloat.ofInt 0 : Double).val a.val = _
  rw [ofInt_0]

/-- A sum with something that is not negative. -/
theorem Double.le_add_of_nonneg (hb : pyLe (PyFloat.ofInt 0) b = true)
    (hsum : PyFloat.isNan (a + b) = false) : pyLe a (a + b) = true := by
  change pyLe (PyFloat.ofInt 0 : Double).val b.val = true at hb
  change PyFloat.isNan (roundExact (a.val.add b.val)) = false at hsum
  show pyLe a.val (roundExact (a.val.add b.val)) = true
  rw [ofInt_0] at hb
  rw [← roundExact_val a]
  nth_rewrite 2 [roundExact_val a]
  refine roundExact_mono ?_
  cases ha : a.val with
  | nan =>
    rw [ha] at hsum
    cases hsum
  | inf neg =>
    rw [ha] at hsum
    cases hbval : b.val with
    | nan =>
      rw [hbval] at hsum
      cases hsum
    | inf neg' =>
      rw [hbval] at hsum
      cases neg <;> cases neg' <;> first | rfl | cases hsum
    | fin q => cases neg <;> rfl
  | fin p =>
    cases hbval : b.val with
    | nan =>
      rw [hbval] at hb
      cases hb
    | inf neg' =>
      rw [hbval] at hb
      cases neg' with
      | true => cases hb
      | false => rfl
    | fin q =>
      rw [hbval, exactLe_fin] at hb
      exact exactLe_fin.2 (le_add_of_nonneg_right hb)

theorem Double.mul_nonneg (ha : PyFloat.lt (PyFloat.ofInt 0) a = true)
    (hb : PyFloat.lt (PyFloat.ofInt 0) b = true) : pyLe (PyFloat.ofInt 0) (a * b) = true := by
  rw [zero_lt_iff] at ha hb
  show pyLe (PyFloat.ofInt 0 : Double).val (roundExact (a.val.mul b.val)) = true
  rw [← roundExact_val, ofInt_0]
  refine roundExact_mono ?_
  cases ha' : a.val <;> cases hb' : b.val <;> rw [ha'] at ha <;> rw [hb'] at hb
  case fin.fin p q =>
    have hp : 0 < p := of_decide_eq_true ha
    have hq : 0 < q := of_decide_eq_true hb
    exact exactLe_fin.2 (mul_pos hp hq).le
  all_goals simp_all [pyLe, PyFloat.isNan, PyFloat.lt, Exact.lt, Exact.mul, le_of_lt, ne_of_gt]

theorem zero_lt_roundExact {x : ℚ} :
    (Exact.fin 0).lt (roundExact (.fin x)) = true ↔ 0 < binary64.round x := by
  rw [roundExact]
  split
  · next hbig =>
    have hne : binary64.round x ≠ 0 := by
      intro hzero
      rw [hzero, abs_zero] at hbig
      exact absurd hbig (not_le.2 (by positivity))
    rcases le_or_gt 0 x with hx | hx
    · rw [decide_eq_false (not_lt.2 hx)]
      exact iff_of_true rfl ((binary64.round_nonneg hx).lt_of_ne hne.symm)
    · rw [decide_eq_true hx]
      exact iff_of_false (by decide) (not_lt.2 (binary64.round_nonpos hx.le))
  · exact decide_eq_true_iff

/-- A difference of doubles is not rounded to zero. -/
theorem Double.sub_pos_iff :
    PyFloat.lt (PyFloat.ofInt 0) (b - a) = true ↔ PyFloat.lt a b = true := by
  rw [zero_lt_iff]
  show (Exact.fin 0).lt (roundExact (b.val.add a.val.neg)) = true ↔ a.val.lt b.val = true
  cases ha : a.val <;> cases hb : b.val
  case fin.fin p q =>
    have hdiff : 0 < binary64.round (q + -p) ↔ p < q := by
      constructor
      · intro hpos
        by_contra hle
        exact absurd (binary64.round_nonpos (by linarith)) (not_le.2 hpos)
      · intro hlt
        -- both are multiples of the least double
        obtain ⟨m, hm⟩ := binary64.round_multiple (q := p) (k := -1074) (le_max_right _ _)
        obtain ⟨n, hn⟩ := binary64.round_multiple (q := q) (k := -1074) (le_max_right _ _)
        rw [round_val ha] at hm
        rw [round_val hb] at hn
        have htiny : (0 : ℚ) < 2 ^ (-1074 : ℤ) := Format.unit_pos _
        have hmn : m + 1 ≤ n := by
          rw [hm, hn, mul_lt_mul_iff_left₀ htiny] at hlt
          exact_mod_cast hlt
        have hcast : (m : ℚ) + 1 ≤ n := by exact_mod_cast hmn
        rw [binary64.round_pos_iff (by linarith)]
        calc (2 : ℚ) ^ (binary64.least - 1) < 2 ^ (-1074 : ℤ) :=
              zpow_lt_zpow_right₀ (by norm_num) (by decide)
          _ ≤ (n - m) * 2 ^ (-1074 : ℤ) := le_mul_of_one_le_left htiny.le (by linarith)
          _ = q + -p := by rw [hm, hn]; ring
    exact (zero_lt_roundExact.trans hdiff).trans decide_eq_true_iff.symm
  case inf.inf neg neg' => cases neg <;> cases neg' <;> decide
  case inf.fin neg q => cases neg <;> simp [roundExact, Exact.neg, Exact.add, Exact.lt]
  case fin.inf p neg => cases neg <;> simp [roundExact, Exact.neg, Exact.add, Exact.lt]
  all_goals simp [roundExact, Exact.neg, Exact.add, Exact.lt]

end SpeedLimits
end MazdaPort
