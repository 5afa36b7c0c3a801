import Mathlib.Data.Nat.ModEq
import Mathlib.Data.Nat.Digits.Defs
import Mathlib.Data.ZMod.Basic
import Mathlib.Tactic.Linarith
import Mathlib.Tactic.Ring

/-!
# MazdaPort.Lib.Montgomery

Montgomery multiplication by rows, in the base `β` and for the modulus `n`. A row adds a digit of
one factor times the other, then a multiple of `n` that clears the lowest digit, and drops that
digit. What does not fit below `R` has `n` taken off it.

`reduce_lt`: taking `n` off once is enough. `rows_modEq`: after `k` rows the sum is the product divided by
`β ^ k`, modulo `n`. `mont_square` and `mont_finish` are the steps of an exponentiation in that
form, as equations in `ZMod n`.
-/

namespace MazdaPort
namespace Montgomery

variable {β n n' R : ℕ}

/-! ## A row -/

/-- The multiple of `n` that clears the lowest digit of `t`, where `n'` is `-1 / n` modulo `β`. -/
def quotient (β n' t : ℕ) : ℕ := t % β * n' % β

def reduce (β n n' t : ℕ) : ℕ := (t + quotient β n' t * n) / β

def row (β n n' R b c a : ℕ) : ℕ :=
  let t := reduce β n n' (c + a * b)
  if t < R then t else t - n

theorem quotient_lt (hβ : 0 < β) (t : ℕ) : quotient β n' t < β := Nat.mod_lt _ hβ

theorem dvd_add_quotient (hinv : β ∣ n * n' + 1) (t : ℕ) : β ∣ t + quotient β n' t * n := by
  have hquot : quotient β n' t ≡ t * n' [MOD β] := by
    unfold quotient
    exact (Nat.mod_modEq _ _).trans ((Nat.mod_modEq t β).mul_right n')
  have hsum : t + quotient β n' t * n ≡ t + t * n' * n [MOD β] := (hquot.mul_right n).add_left t
  have hfactor : t + t * n' * n = t * (n * n' + 1) := by ring
  rw [hfactor] at hsum
  exact (hsum.dvd_iff dvd_rfl).2 (hinv.mul_left t)

theorem mul_reduce (hinv : β ∣ n * n' + 1) (t : ℕ) :
    β * reduce β n n' t = t + quotient β n' t * n :=
  Nat.mul_div_cancel' (dvd_add_quotient hinv t)

theorem reduce_modEq (hinv : β ∣ n * n' + 1) (t : ℕ) : β * reduce β n n' t ≡ t [MOD n] := by
  rw [mul_reduce hinv, Nat.ModEq, Nat.add_mul_mod_self_right]

theorem reduce_lt (hinv : β ∣ n * n' + 1) (hβ : 0 < β) {a b c : ℕ} (ha : a < β) (hb : b < R)
    (hc : c < R) : reduce β n n' (c + a * b) < R + n := by
  have hmul := mul_reduce hinv (c + a * b)
  have hquot : quotient β n' (c + a * b) * n ≤ (β - 1) * n :=
    Nat.mul_le_mul_right n (Nat.le_sub_one_of_lt (quotient_lt hβ _))
  have hprod : a * b ≤ (β - 1) * (R - 1) :=
    Nat.mul_le_mul (Nat.le_sub_one_of_lt ha) (Nat.le_sub_one_of_lt hb)
  obtain ⟨B, rfl⟩ : ∃ B, β = B + 1 := ⟨β - 1, by omega⟩
  obtain ⟨S, rfl⟩ : ∃ S, R = S + 1 := ⟨R - 1, by omega⟩
  simp only [Nat.add_sub_cancel] at hquot hprod
  by_contra hge
  have hbig : (B + 1) * (S + 1 + n) ≤ (B + 1) * reduce (B + 1) n n' (c + a * b) :=
    Nat.mul_le_mul_left _ (Nat.not_lt.1 hge)
  rw [hmul] at hbig
  have hexpand : (B + 1) * (S + 1 + n) = B * S + B + S + 1 + B * n + n := by ring
  omega

theorem row_modEq (hinv : β ∣ n * n' + 1) (hn : n ≤ R) (a b c : ℕ) :
    β * row β n n' R b c a ≡ c + a * b [MOD n] := by
  have hreduce := reduce_modEq hinv (c + a * b)
  unfold row
  dsimp only
  split
  · exact hreduce
  · next hge =>
    have hsub : reduce β n n' (c + a * b) - n ≡ reduce β n n' (c + a * b) [MOD n] :=
      (Nat.modEq_iff_dvd' (Nat.sub_le _ _)).2 (by rw [Nat.sub_sub_self (by omega)])
    exact (hsub.mul_left β).trans hreduce

/-! ## All rows -/

/-- By induction on the digits, the lowest first. -/
theorem rows_modEq (hinv : β ∣ n * n' + 1) (hn : n ≤ R) (b : ℕ) (as : List ℕ) (c : ℕ) :
    β ^ as.length * as.foldl (row β n n' R b) c ≡ c + Nat.ofDigits β as * b [MOD n] := by
  induction as generalizing c with
  | nil => simpa using Nat.ModEq.refl c
  | cons a as ih =>
    rw [List.foldl_cons, List.length_cons, Nat.ofDigits_cons]
    have hrest := (ih (row β n n' R b c a)).mul_left β
    have hrow := (row_modEq hinv hn a b c).add_right (β * (Nat.ofDigits β as * b))
    calc β ^ (as.length + 1) * as.foldl (row β n n' R b) (row β n n' R b c a)
        = β * (β ^ as.length * as.foldl (row β n n' R b) (row β n n' R b c a)) := by ring
      _ ≡ β * (row β n n' R b c a + Nat.ofDigits β as * b) [MOD n] := hrest
      _ = β * row β n n' R b c a + β * (Nat.ofDigits β as * b) := by ring
      _ ≡ c + a * b + β * (Nat.ofDigits β as * b) [MOD n] := hrow
      _ = c + (a + β * Nat.ofDigits β as) * b := by ring

/-! ## Exponentiation -/

section Exponentiation

variable {r x v w : ZMod n}

/-- A square of the form of `x ^ k` is the form of `x ^ (2 * k)`. -/
theorem mont_square (hr : IsUnit r) {k : ℕ} (hv : v = x ^ k * r) (hw : r * w = v * v) :
    w = x ^ (2 * k) * r := by
  refine hr.mul_left_cancel ?_
  rw [hw, hv]
  ring

/-- A product with `x` itself leaves the form. -/
theorem mont_finish (hr : IsUnit r) {k : ℕ} (hv : v = x ^ k * r) (hw : r * w = v * x) :
    w = x ^ (k + 1) := by
  refine hr.mul_left_cancel ?_
  rw [hw, hv]
  ring

end Exponentiation

end Montgomery
end MazdaPort
