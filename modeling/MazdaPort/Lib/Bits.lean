import Mathlib.Data.Nat.Bitwise
import Mathlib.Tactic.Positivity
import Mathlib.Tactic.Ring

/-!
# MazdaPort.Lib.Bits

The bits of integers, of bytes and of byte strings, where bit `b` is bit `b % 8` of byte `b / 8`.
`putField` writes a few bits of an integer into a byte: `putField_bit` says which bits it changes.
-/

namespace MazdaPort
namespace Bits

/-- Bit `k` of an integer in two's complement. -/
def intBit (v : Int) (k : Nat) : Bool := decide (v / 2 ^ k % 2 = 1)

theorem intBit_div (v : Int) (s k : Nat) : intBit (v / 2 ^ s) k = intBit v (s + k) := by
  have hpos : (0 : Int) ≤ 2 ^ s := by positivity
  unfold intBit
  rw [Int.ediv_ediv_of_nonneg hpos, ← pow_add]

theorem testBit_emod (v : Int) {size k : Nat} (hk : k < size) :
    (v % 2 ^ size).toNat.testBit k = intBit v k := by
  obtain ⟨m, rfl⟩ : ∃ m, size = k + 1 + m := ⟨size - k - 1, by omega⟩
  have hpos : (0 : Int) < 2 ^ (k + 1 + m) := by positivity
  have hk0 : (2 : Int) ^ k ≠ 0 := by positivity
  have hnn : 0 ≤ v % 2 ^ (k + 1 + m) := Int.emod_nonneg v hpos.ne'
  have hpow : (2 : Int) ^ (k + 1 + m) = 2 ^ k * (2 * 2 ^ m) := by ring
  have hdiv : v / 2 ^ k = v % 2 ^ (k + 1 + m) / 2 ^ k + 2 * (2 ^ m * (v / 2 ^ (k + 1 + m))) := by
    conv_lhs => rw [← Int.emod_add_mul_ediv v (2 ^ (k + 1 + m))]
    rw [hpow, mul_assoc, Int.add_mul_ediv_left _ _ hk0, mul_assoc]
  have hcast : (((v % 2 ^ (k + 1 + m)).toNat / 2 ^ k : Nat) : Int) =
      v % 2 ^ (k + 1 + m) / 2 ^ k := by
    push_cast
    rw [Int.toNat_of_nonneg hnn]
  rw [Nat.testBit_eq_decide_div_mod_eq, intBit, decide_eq_decide, hdiv]
  omega

theorem intBit_emod (v : Int) {size k : Nat} (hk : k < size) :
    intBit (v % 2 ^ size) k = intBit v k := by
  rw [← testBit_emod v hk, ← testBit_emod (v % 2 ^ size) hk, Int.emod_emod]

theorem testBit_emod_ge (v : Int) {size k : Nat} (hk : size ≤ k) :
    (v % 2 ^ size).toNat.testBit k = false := by
  have hpos : (0 : Int) < 2 ^ size := by positivity
  have hlt : v % 2 ^ size < 2 ^ size := Int.emod_lt_of_pos v hpos
  have hnat : (v % 2 ^ size).toNat < 2 ^ size := by
    rw [Int.toNat_lt (Int.emod_nonneg v hpos.ne')]
    push_cast
    exact hlt
  exact Nat.testBit_lt_two_pow (hnat.trans_le (Nat.pow_le_pow_right (by decide) hk))

/-! ## Bytes -/

def byteBit (b : UInt8) (r : Nat) : Bool := b.toBitVec.getLsbD r

theorem byte_ext {b b' : UInt8} (h : ∀ r < 8, byteBit b r = byteBit b' r) : b = b' := by
  apply UInt8.eq_of_toBitVec_eq
  exact BitVec.eq_of_getLsbD_eq h

@[simp] theorem byteBit_and (b b' : UInt8) (r : Nat) :
    byteBit (b &&& b') r = (byteBit b r && byteBit b' r) := by
  simp [byteBit]

@[simp] theorem byteBit_or (b b' : UInt8) (r : Nat) :
    byteBit (b ||| b') r = (byteBit b r || byteBit b' r) := by
  simp [byteBit]

@[simp] theorem byteBit_xor (b b' : UInt8) (r : Nat) :
    byteBit (b ^^^ b') r = (byteBit b r ^^ byteBit b' r) := by
  simp [byteBit]

theorem byteBit_not (b : UInt8) {r : Nat} (hr : r < 8) : byteBit (~~~b) r = !byteBit b r := by
  simp [byteBit, hr]

/-- `z` chooses the bits of `y`, and the others are those of `x`. -/
theorem byteBit_choose (x y z : UInt8) {r : Nat} (hr : r < 8) :
    byteBit ((x &&& ~~~z) ||| (y &&& z)) r = if byteBit z r then byteBit y r else byteBit x r := by
  rw [byteBit_or, byteBit_and, byteBit_and, byteBit_not z hr]
  cases byteBit z r <;> simp

/-- `v` in the `size` bits from `shift` on, and `b` in the others. -/
def putField (b : UInt8) (shift size : Nat) (v : Int) : UInt8 :=
  (b &&& ~~~ UInt8.ofNat ((2 ^ size - 1) <<< shift)) |||
    UInt8.ofNat ((v % 2 ^ size).toNat <<< shift)

theorem putField_bit (b : UInt8) (shift size : Nat) (v : Int) {r : Nat} (hr : r < 8) :
    byteBit (putField b shift size v) r =
      if shift ≤ r ∧ r < shift + size then intBit v (r - shift) else byteBit b r := by
  simp only [byteBit, putField, UInt8.toBitVec_or, UInt8.toBitVec_and, UInt8.toBitVec_not,
    UInt8.toBitVec_ofNat', BitVec.getLsbD_or, BitVec.getLsbD_and, BitVec.getLsbD_not,
    BitVec.getLsbD_ofNat, Nat.testBit_shiftLeft, Nat.testBit_two_pow_sub_one, hr, decide_true,
    Bool.true_and]
  by_cases hlow : shift ≤ r
  · by_cases hhigh : r < shift + size
    · have hin : r - shift < size := by omega
      simp [hlow, hhigh, hin, testBit_emod v hin]
    · have hout : ¬ r - shift < size := by omega
      simp [hlow, hhigh, hout, testBit_emod_ge v (Nat.not_lt.1 hout)]
  · simp [hlow]

/-! ## Byte strings -/

def bit (dat : List UInt8) (b : Nat) : Bool := byteBit (dat.getD (b / 8) 0) (b % 8)

theorem bit_set (dat : List UInt8) {i : Nat} (hi : i < dat.length) (x : UInt8) (b : Nat) :
    bit (dat.set i x) b = if b / 8 = i then byteBit x (b % 8) else bit dat b := by
  unfold bit
  by_cases hb : b / 8 = i
  · simp [hb, hi]
  · simp [hb, List.getElem?_set_ne (Ne.symm hb)]

/-- Bytes with the same bits are the same. -/
theorem getD_eq_of_bits {dat dat' : List UInt8} {j : Nat}
    (h : ∀ r < 8, bit dat (8 * j + r) = bit dat' (8 * j + r)) : dat.getD j 0 = dat'.getD j 0 := by
  refine byte_ext fun r hr => ?_
  have hbit := h r hr
  have hdiv : (8 * j + r) / 8 = j := by omega
  have hmod : (8 * j + r) % 8 = r := by omega
  simpa only [bit, hdiv, hmod] using hbit

end Bits
end MazdaPort
