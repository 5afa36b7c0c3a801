import Mathlib.Data.Int.Log
import Mathlib.Data.Rat.Floor
import Mathlib.Tactic.Linarith
import Mathlib.Tactic.NormNum
import Mathlib.Tactic.Ring

/-!
# MazdaPort.Lib.Rounding

Rounding of rationals, to the nearest integer and to a binary floating-point format, ties to the
even neighbour. A `Format` has so many digits after the leading one, and a least exponent, below
which the digits get fewer; it has no greatest exponent.

`round_mono`: rounding keeps the order. `round_neg`, `round_round`: it is the same on both sides of
zero, and done once. `round_multiple`: the values of a format from a power of two on are the
multiples of a smaller one. `round_pos_iff`: what is rounded to zero.
-/

namespace MazdaPort
namespace Rounding

/-! ## To the nearest integer -/

def nearestEven (q : ℚ) : ℤ :=
  let f := q.floor
  if q - f < 1 / 2 then f
  else if q - f > 1 / 2 then f + 1
  else if f % 2 = 0 then f
  else f + 1

theorem nearestEven_bounds (q : ℚ) : q.floor ≤ nearestEven q ∧ nearestEven q ≤ q.floor + 1 := by
  unfold nearestEven
  dsimp only
  split
  · omega
  · split
    · omega
    · split <;> omega

theorem le_nearestEven {q : ℚ} {n : ℤ} (h : (n : ℚ) ≤ q) : n ≤ nearestEven q := by
  have hle : n ≤ q.floor := Rat.le_floor_iff.2 h
  exact hle.trans (nearestEven_bounds q).1

theorem nearestEven_le {q : ℚ} {n : ℤ} (h : q ≤ n) : nearestEven q ≤ n := by
  have hfloor : (q.floor : ℚ) ≤ q := Rat.floor_le q
  have hle : q.floor ≤ n := by exact_mod_cast hfloor.trans h
  rcases hle.lt_or_eq with hlt | heq
  · have hup := (nearestEven_bounds q).2
    omega
  · have hq : q = n := by
      rw [heq] at hfloor
      exact le_antisymm h hfloor
    unfold nearestEven
    dsimp only
    rw [heq, hq, if_pos (by norm_num)]

theorem nearestEven_intCast (n : ℤ) : nearestEven n = n :=
  le_antisymm (nearestEven_le le_rfl) (le_nearestEven le_rfl)

theorem nearestEven_mono {a b : ℚ} (h : a ≤ b) : nearestEven a ≤ nearestEven b := by
  have hfloor : a.floor ≤ b.floor := Rat.le_floor_iff.2 ((Rat.floor_le a).trans h)
  rcases hfloor.lt_or_eq with hlt | heq
  · have hup := (nearestEven_bounds a).2
    have hlow := (nearestEven_bounds b).1
    omega
  · -- between the same integers: compare the distances from the lower one
    unfold nearestEven
    dsimp only
    rw [heq]
    by_cases ha : a - (b.floor : ℚ) < 1 / 2
    · rw [if_pos ha]
      have hlow := (nearestEven_bounds b).1
      unfold nearestEven at hlow
      exact hlow
    · have hb : ¬ b - (b.floor : ℚ) < 1 / 2 := by linarith
      rw [if_neg ha, if_neg hb]
      by_cases hup : b - (b.floor : ℚ) > 1 / 2
      · rw [if_pos hup]
        split
        · omega
        · split <;> omega
      · have haup : ¬ a - (b.floor : ℚ) > 1 / 2 := by linarith
        rw [if_neg hup, if_neg haup]

theorem nearestEven_pos_iff {q : ℚ} : 0 < nearestEven q ↔ 1 / 2 < q := by
  constructor
  · intro hpos
    by_contra hle
    have hmono := nearestEven_mono (not_lt.1 hle)
    have hhalf : nearestEven (1 / 2) = 0 := by decide +kernel
    omega
  · intro hlt
    by_cases hone : 1 ≤ q
    · have hle : 1 ≤ nearestEven q := le_nearestEven (by exact_mod_cast hone)
      omega
    · have hfloor : q.floor = 0 := by
        have hlow : 0 ≤ q.floor := Rat.le_floor_iff.2 (by push_cast; linarith)
        have hup : q.floor < 1 := Rat.floor_lt_iff.2 (by push_cast; linarith)
        omega
      unfold nearestEven
      dsimp only
      rw [hfloor, if_neg (by push_cast; linarith), if_pos (by push_cast; linarith)]
      omega

theorem nearestEven_neg_iff {q : ℚ} : nearestEven q < 0 ↔ q < -1 / 2 := by
  constructor
  · intro hneg
    by_contra hge
    have hmono := nearestEven_mono (not_lt.1 hge)
    have hhalf : nearestEven (-1 / 2) = 0 := by decide +kernel
    omega
  · intro hlt
    by_cases hone : q ≤ -1
    · have hle : nearestEven q ≤ -1 := nearestEven_le (by exact_mod_cast hone)
      omega
    · have hfloor : q.floor = -1 := by
        have hlow : -1 ≤ q.floor := Rat.le_floor_iff.2 (by push_cast; linarith)
        have hup : q.floor < 0 := Rat.floor_lt_iff.2 (by push_cast; linarith)
        omega
      unfold nearestEven
      dsimp only
      rw [hfloor, if_pos (by push_cast; linarith)]
      omega

/-- To the even neighbour is the same on both sides of zero. -/
theorem nearestEven_neg (q : ℚ) : nearestEven (-q) = -nearestEven q := by
  have hle : (q.floor : ℚ) ≤ q := Rat.floor_le q
  rcases hle.eq_or_lt with heq | hlt
  · rw [← heq, ← Int.cast_neg, nearestEven_intCast, nearestEven_intCast]
  · have hup : q < q.floor + 1 := by exact_mod_cast Rat.lt_floor_add_one q
    have hfloor : (-q).floor = -q.floor - 1 := by
      have hlow : -q.floor - 1 ≤ (-q).floor := Rat.le_floor_iff.2 (by push_cast; linarith)
      have hhigh : (-q).floor < -q.floor := Rat.floor_lt_iff.2 (by push_cast; linarith)
      omega
    unfold nearestEven
    dsimp only
    rw [hfloor]
    push_cast
    by_cases hbelow : q - q.floor < 1 / 2
    · rw [if_pos hbelow, if_neg (by linarith), if_pos (by linarith)]
      omega
    · by_cases habove : q - q.floor > 1 / 2
      · rw [if_neg hbelow, if_pos habove, if_pos (by linarith)]
        omega
      · rw [if_neg hbelow, if_neg habove, if_neg (by linarith), if_neg (by linarith)]
        split <;> split <;> omega

/-! ## To a binary format -/

structure Format where
  digits : ℕ
  least : ℤ

namespace Format

variable (f : Format)

/-- The exponent of the last digit of `q`. -/
def unit (q : ℚ) : ℤ := max (Int.log 2 q - f.digits) f.least

def round (q : ℚ) : ℚ := nearestEven (q / 2 ^ f.unit |q|) * 2 ^ f.unit |q|

theorem unit_pos (e : ℤ) : (0 : ℚ) < 2 ^ e := zpow_pos (by norm_num) e

theorem zpow_multiple {j k : ℤ} (h : j ≤ k) : ∃ n : ℤ, (2 : ℚ) ^ k = n * 2 ^ j := by
  obtain ⟨m, rfl⟩ : ∃ m : ℕ, k = m + j := ⟨(k - j).toNat, by omega⟩
  refine ⟨2 ^ m, ?_⟩
  rw [zpow_add₀ (by norm_num), zpow_natCast]
  push_cast
  rfl

theorem round_of_nonneg {q : ℚ} (h : 0 ≤ q) :
    f.round q = nearestEven (q / 2 ^ f.unit q) * 2 ^ f.unit q := by
  unfold round
  rw [abs_of_nonneg h]

theorem round_neg (q : ℚ) : f.round (-q) = -f.round q := by
  unfold round
  rw [abs_neg, neg_div, nearestEven_neg, Int.cast_neg, neg_mul]

@[simp] theorem round_zero : f.round 0 = 0 := by
  have hzero : nearestEven 0 = 0 := nearestEven_intCast 0
  unfold round
  rw [zero_div, hzero]
  simp

theorem round_nonneg {q : ℚ} (h : 0 ≤ q) : 0 ≤ f.round q := by
  have hdiv : ((0 : ℤ) : ℚ) ≤ q / 2 ^ f.unit q := by
    simpa using div_nonneg h (unit_pos (f.unit q)).le
  have hnear : (0 : ℚ) ≤ nearestEven (q / 2 ^ f.unit q) := by
    exact_mod_cast le_nearestEven hdiv
  rw [f.round_of_nonneg h]
  exact mul_nonneg hnear (unit_pos (f.unit q)).le

theorem round_nonpos {q : ℚ} (h : q ≤ 0) : f.round q ≤ 0 := by
  have hdiv : q / 2 ^ f.unit |q| ≤ ((0 : ℤ) : ℚ) := by
    simpa using div_nonpos_of_nonpos_of_nonneg h (unit_pos (f.unit |q|)).le
  have hnear : (nearestEven (q / 2 ^ f.unit |q|) : ℚ) ≤ 0 := by
    exact_mod_cast nearestEven_le hdiv
  exact mul_nonpos_of_nonpos_of_nonneg hnear (unit_pos _).le

theorem unit_mono {a b : ℚ} (ha : 0 < a) (hab : a ≤ b) : f.unit a ≤ f.unit b :=
  max_le_max_right _ (sub_le_sub_right (Int.log_mono_right ha hab) _)

theorem le_unit {q : ℚ} {k : ℤ} (h : (2 : ℚ) ^ (k + f.digits) ≤ q) : k ≤ f.unit q := by
  have hq : 0 < q := (unit_pos _).trans_le h
  have hlog : k + f.digits ≤ Int.log 2 q :=
    (Int.zpow_le_iff_le_log (by norm_num) hq).1 (by exact_mod_cast h)
  exact le_max_of_le_left (by omega)

/-- A power of two is in the format, so rounding does not cross it. -/
theorem round_le_zpow {q : ℚ} {k : ℤ} (hq : 0 ≤ q) (h : q ≤ 2 ^ k) (hk : f.unit q ≤ k) :
    f.round q ≤ 2 ^ k := by
  obtain ⟨n, hn⟩ := zpow_multiple hk
  have hdiv : q / 2 ^ f.unit q ≤ n := by
    rw [div_le_iff₀ (unit_pos _), ← hn]
    exact h
  have hnear : (nearestEven (q / 2 ^ f.unit q) : ℚ) ≤ n := by
    exact_mod_cast nearestEven_le hdiv
  rw [f.round_of_nonneg hq, hn]
  exact mul_le_mul_of_nonneg_right hnear (unit_pos _).le

theorem zpow_le_round {q : ℚ} {k : ℤ} (h : 2 ^ k ≤ q) (hk : f.unit q ≤ k) : 2 ^ k ≤ f.round q := by
  obtain ⟨n, hn⟩ := zpow_multiple hk
  have hdiv : (n : ℚ) ≤ q / 2 ^ f.unit q := by
    rw [le_div_iff₀ (unit_pos _), ← hn]
    exact h
  have hnear : (n : ℚ) ≤ nearestEven (q / 2 ^ f.unit q) := by
    exact_mod_cast le_nearestEven hdiv
  rw [f.round_of_nonneg ((unit_pos k).le.trans h), hn]
  exact mul_le_mul_of_nonneg_right hnear (unit_pos _).le

theorem round_mono_of_nonneg {a b : ℚ} (ha : 0 ≤ a) (hab : a ≤ b) : f.round a ≤ f.round b := by
  rcases ha.lt_or_eq with hpos | hzero
  · rcases (f.unit_mono hpos hab).lt_or_eq with hlt | heq
    · -- a power of two lies between them
      have hb : 0 < b := hpos.trans_le hab
      have hunit : f.unit b = Int.log 2 b - f.digits := by
        have hleast : f.least ≤ f.unit a := le_max_right _ _
        unfold unit at hlt hleast ⊢
        omega
      have hlog : Int.log 2 a < Int.log 2 b := by
        have hup : Int.log 2 a - f.digits ≤ f.unit a := le_max_left _ _
        omega
      have hapow : a ≤ 2 ^ Int.log 2 b := by
        have hlt : a < ((2 : ℕ) : ℚ) ^ Int.log 2 b :=
          (Int.lt_zpow_iff_log_lt (by norm_num) hpos).2 hlog
        exact_mod_cast hlt.le
      have hbpow : (2 : ℚ) ^ Int.log 2 b ≤ b := by
        exact_mod_cast Int.zpow_log_le_self (by norm_num) hb
      exact (f.round_le_zpow ha hapow (by omega)).trans (f.zpow_le_round hbpow (by omega))
    · rw [f.round_of_nonneg ha, f.round_of_nonneg (ha.trans hab), heq]
      have hdiv : a / 2 ^ f.unit b ≤ b / 2 ^ f.unit b :=
        div_le_div_of_nonneg_right hab (unit_pos _).le
      have hnear : (nearestEven (a / 2 ^ f.unit b) : ℚ) ≤ nearestEven (b / 2 ^ f.unit b) := by
        exact_mod_cast nearestEven_mono hdiv
      exact mul_le_mul_of_nonneg_right hnear (unit_pos _).le
  · rw [← hzero, f.round_zero]
    exact f.round_nonneg (ha.trans hab)

theorem round_mono {a b : ℚ} (h : a ≤ b) : f.round a ≤ f.round b := by
  rcases le_total 0 a with ha | ha
  · exact f.round_mono_of_nonneg ha h
  · rcases le_total 0 b with hb | hb
    · exact (f.round_nonpos ha).trans (f.round_nonneg hb)
    · have hneg := f.round_mono_of_nonneg (neg_nonneg.2 hb) (neg_le_neg h)
      rw [f.round_neg, f.round_neg] at hneg
      exact neg_le_neg_iff.1 hneg

theorem round_multiple {q : ℚ} {k : ℤ} (hk : k ≤ f.unit |q|) : ∃ m : ℤ, f.round q = m * 2 ^ k := by
  obtain ⟨n, hn⟩ := zpow_multiple hk
  refine ⟨nearestEven (q / 2 ^ f.unit |q|) * n, ?_⟩
  rw [round, Int.cast_mul, mul_assoc, ← hn]

/-- A value with no digit below the last one of the format is in it. -/
theorem round_of_multiple {q : ℚ} {n k : ℤ} (hk : f.unit |q| ≤ k) (h : q = n * 2 ^ k) :
    f.round q = q := by
  obtain ⟨m, hm⟩ := zpow_multiple hk
  have hdiv : q / 2 ^ f.unit |q| = ((n * m : ℤ) : ℚ) := by
    rw [div_eq_iff (unit_pos _).ne', Int.cast_mul, mul_assoc, ← hm]
    exact h
  rw [round, hdiv, nearestEven_intCast, ← hdiv, div_mul_cancel₀ _ (unit_pos _).ne']

theorem round_round_of_nonneg {q : ℚ} (h : 0 ≤ q) : f.round (f.round q) = f.round q := by
  rcases (f.round_nonneg h).eq_or_lt with hzero | hpos
  · rw [← hzero, f.round_zero]
  · have hq : 0 < q := by
      refine h.lt_of_ne ?_
      rintro rfl
      rw [f.round_zero] at hpos
      exact lt_irrefl _ hpos
    have hlog : Int.log 2 q ≤ f.unit q + f.digits := by
      have hleft : Int.log 2 q - f.digits ≤ f.unit q := le_max_left _ _
      omega
    have hup : q ≤ 2 ^ (f.unit q + f.digits + 1) := by
      have hlt : q < ((2 : ℕ) : ℚ) ^ (Int.log 2 q + 1) :=
        Int.lt_zpow_succ_log_self (by norm_num) q
      refine le_trans (by exact_mod_cast hlt.le) ?_
      exact zpow_le_zpow_right₀ (by norm_num) (by omega)
    have hround := f.round_le_zpow h hup (by omega)
    have habs : |f.round q| = f.round q := abs_of_pos hpos
    rcases hround.lt_or_eq with hlt | heq
    · -- the last digit of the result is not above that of `q`
      have hlog' : Int.log 2 (f.round q) < f.unit q + f.digits + 1 :=
        (Int.lt_zpow_iff_log_lt (by norm_num) hpos).1 (by exact_mod_cast hlt)
      have hunit : f.unit |f.round q| ≤ f.unit q := by
        rw [habs]
        exact max_le (by omega) (le_max_right _ _)
      exact f.round_of_multiple hunit (f.round_of_nonneg h)
    · have hlog' : Int.log 2 (f.round q) = f.unit q + f.digits + 1 := by
        rw [heq]
        exact_mod_cast Int.log_zpow (R := ℚ) (b := 2) (by norm_num) (f.unit q + f.digits + 1)
      have hunit : f.unit |f.round q| ≤ f.unit q + f.digits + 1 := by
        have hleast : f.least ≤ f.unit q := le_max_right _ _
        rw [habs]
        exact max_le (by omega) (by omega)
      exact f.round_of_multiple (n := 1) hunit (by rw [heq, Int.cast_one, one_mul])

@[simp] theorem round_round (q : ℚ) : f.round (f.round q) = f.round q := by
  rcases le_total 0 q with h | h
  · exact f.round_round_of_nonneg h
  · have hneg := f.round_round_of_nonneg (neg_nonneg.2 h)
    rw [f.round_neg, f.round_neg] at hneg
    exact neg_injective hneg

theorem round_within {q c : ℚ} (hc : f.round c = c) (hlow : -c ≤ q) (hhigh : q ≤ c) :
    -c ≤ f.round q ∧ f.round q ≤ c := by
  have hupper := f.round_mono hhigh
  have hlower := f.round_mono hlow
  rw [f.round_neg, hc] at hlower
  rw [hc] at hupper
  exact ⟨hlower, hupper⟩

/-- A division by something of at most one keeps a negative value of the format negative. -/
theorem round_div_neg_iff {q c : ℚ} (hq : f.round q = q) (hpos : 0 < c) (hle : c ≤ 1) :
    f.round (q / c) < 0 ↔ q < 0 := by
  constructor
  · intro h
    by_contra hge
    exact absurd (f.round_nonneg (div_nonneg (not_lt.1 hge) hpos.le)) (not_le.2 h)
  · intro h
    have hdiv : q / c ≤ q := by
      rw [div_le_iff₀ hpos]
      exact le_mul_of_le_one_right h.le hle
    have hmono := f.round_mono hdiv
    rw [hq] at hmono
    exact hmono.trans_lt h

/-- Half of the least positive value of the format is still rounded to zero. -/
theorem round_pos_iff {q : ℚ} (h : 0 ≤ q) : 0 < f.round q ↔ 2 ^ (f.least - 1) < q := by
  have hhalf : ∀ k : ℤ, (2 : ℚ) ^ (k - 1) = 1 / 2 * 2 ^ k := by
    intro k
    rw [zpow_sub_one₀ (by norm_num)]
    ring
  have hround : 0 < f.round q ↔ 2 ^ (f.unit q - 1) < q := by
    rw [f.round_of_nonneg h, mul_pos_iff_of_pos_right (unit_pos _), Int.cast_pos,
      nearestEven_pos_iff, lt_div_iff₀ (unit_pos _), hhalf]
  rw [hround]
  constructor
  · intro hlt
    have hleast : f.least - 1 ≤ f.unit q - 1 := sub_le_sub_right (le_max_right _ _) 1
    exact (zpow_le_zpow_right₀ (by norm_num) hleast).trans_lt hlt
  · intro hlt
    rcases max_choice (Int.log 2 q - f.digits) f.least with hlog | hleast
    · have hq : 0 < q := (unit_pos _).trans hlt
      have hbelow : f.unit q - 1 < Int.log 2 q := by
        unfold unit
        omega
      have hpow : (2 : ℚ) ^ Int.log 2 q ≤ q := by
        exact_mod_cast Int.zpow_log_le_self (by norm_num) hq
      exact (zpow_lt_zpow_right₀ (by norm_num) hbelow).trans_le hpow
    · unfold unit
      rw [hleast]
      exact hlt

end Format

end Rounding
end MazdaPort
