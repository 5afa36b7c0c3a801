import Mathlib.FieldTheory.Finite.Basic
import Mathlib.NumberTheory.LucasPrimality

/-!
# MazdaPort.Lib.PowerMod

Powers modulo a number. `rsa_inverse`: for a product of two primes, the power with `e` undoes the
power with `d` when `e * d` is 1 modulo the least common multiple of the primes less one.
`proth_prime`: primes of the form `k * 2 ^ m + 1`, by powers that are found by squaring.
-/

namespace MazdaPort
namespace PowerMod

/-! ## Undoing a power -/

theorem pow_eq_self {p : ℕ} (hp : p.Prime) (x : ZMod p) (t : ℕ) : x ^ (1 + (p - 1) * t) = x := by
  have : Fact p.Prime := ⟨hp⟩
  by_cases hx : x = 0
  · rw [hx, Nat.add_comm, pow_succ, mul_zero]
  · rw [pow_add, pow_one, pow_mul, ZMod.pow_card_sub_one_eq_one hx, one_pow, mul_one]

theorem pow_modEq_self {p k : ℕ} (hp : p.Prime) (hk : k % (p - 1) = 1 % (p - 1)) (hpos : 0 < k)
    (m : ℕ) : m ^ k ≡ m [MOD p] := by
  have hdvd : p - 1 ∣ k - 1 := (Nat.modEq_iff_dvd' hpos).1 hk.symm
  obtain ⟨t, ht⟩ := hdvd
  have hexp : k = 1 + (p - 1) * t := by omega
  refine (ZMod.natCast_eq_natCast_iff _ _ _).1 ?_
  rw [Nat.cast_pow, hexp, pow_eq_self hp]

theorem rsa_inverse {p q e d m : ℕ} (hp : p.Prime) (hq : q.Prime) (hne : p ≠ q)
    (hed : e * d % Nat.lcm (p - 1) (q - 1) = 1) (hm : m < p * q) :
    (m ^ d % (p * q)) ^ e % (p * q) = m := by
  have hpos : 0 < e * d := by
    rcases Nat.eq_zero_or_pos (e * d) with hzero | hpos
    · rw [hzero, Nat.zero_mod] at hed
      cases hed
    · exact hpos
  have hmod : e * d ≡ 1 [MOD Nat.lcm (p - 1) (q - 1)] := by
    have hself : e * d % Nat.lcm (p - 1) (q - 1) ≡ e * d [MOD Nat.lcm (p - 1) (q - 1)] :=
      Nat.mod_modEq _ _
    rw [hed] at hself
    exact hself.symm
  have hmp := pow_modEq_self hp (hmod.of_dvd (Nat.dvd_lcm_left _ _)) hpos m
  have hmq := pow_modEq_self hq (hmod.of_dvd (Nat.dvd_lcm_right _ _)) hpos m
  have hboth : m ^ (e * d) ≡ m [MOD p * q] :=
    (Nat.modEq_and_modEq_iff_modEq_mul ((Nat.coprime_primes hp hq).2 hne)).1 ⟨hmp, hmq⟩
  have hpower : (m ^ d % (p * q)) ^ e ≡ m ^ (e * d) [MOD p * q] := by
    rw [Nat.mul_comm e d, pow_mul]
    exact (Nat.mod_modEq _ _).pow e
  exact Nat.mod_eq_of_modEq (hpower.trans hboth) hm

/-! ## Primes with a short certificate -/

/-- `x` squared `k` times, modulo `m`. -/
def squares (m : ℕ) : ℕ → ℕ → ℕ
  | 0, x => x
  | k + 1, x => squares m k (x * x % m)

theorem squares_cast (m k x : ℕ) : (squares m k x : ZMod m) = (x : ZMod m) ^ 2 ^ k := by
  induction k generalizing x with
  | zero => rw [squares, pow_zero, pow_one]
  | succ k ih =>
    rw [squares, ih, ZMod.natCast_mod, Nat.cast_mul, ← pow_two, ← pow_mul, ← pow_succ']

/-- `k` is a prime here. The three powers are those with exponents `n - 1`, `(n - 1) / 2` and
`(n - 1) / k`. -/
theorem proth_prime {n k m a : ℕ} (hn : n = k * 2 ^ (m + 1) + 1) (hk : k.Prime)
    (h1 : squares n (m + 1) (a ^ k % n) % n = 1 % n) (h2 : squares n m (a ^ k % n) % n ≠ 1 % n)
    (hk' : squares n (m + 1) a % n ≠ 1 % n) : n.Prime := by
  have hcast : ∀ j, (squares n j (a ^ k % n) : ZMod n) = (a : ZMod n) ^ (k * 2 ^ j) := by
    intro j
    rw [squares_cast, ZMod.natCast_mod, Nat.cast_pow, ← pow_mul]
  have hpred : n - 1 = k * 2 ^ (m + 1) := by rw [hn, Nat.add_sub_cancel]
  refine lucas_primality n a ?_ ?_
  · rw [hpred, ← hcast]
    exact_mod_cast (ZMod.natCast_eq_natCast_iff' _ _ _).2 h1
  · intro q hq hdvd heq
    rw [hpred] at hdvd heq
    rcases hq.dvd_mul.1 hdvd with hqk | hq2
    · obtain rfl := (Nat.prime_dvd_prime_iff_eq hq hk).1 hqk
      rw [Nat.mul_div_cancel_left _ hq.pos, ← squares_cast] at heq
      exact hk' ((ZMod.natCast_eq_natCast_iff' _ _ _).1 (by exact_mod_cast heq))
    · obtain rfl := (Nat.prime_dvd_prime_iff_eq hq Nat.prime_two).1 (hq.dvd_of_dvd_pow hq2)
      rw [pow_succ, ← Nat.mul_assoc, Nat.mul_div_cancel _ (by decide), ← hcast] at heq
      exact h2 ((ZMod.natCast_eq_natCast_iff' _ _ _).1 (by exact_mod_cast heq))

end PowerMod
end MazdaPort
