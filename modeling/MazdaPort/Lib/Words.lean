import Mathlib.Data.Nat.Digits.Defs
import Mathlib.Data.Nat.Digits.Lemmas
import Mathlib.Tactic.Ring

/-!
# MazdaPort.Lib.Words

Numbers as words of 32 bits, the lowest first (`number`), and as bytes, the highest first
(`ofBytes`).

`number_lt`, `ofBytes_lt`: so many words or bytes hold numbers of so many bits. `ofBytes_inj`: byte
strings of one length that are the same number are the same. `word_toNat` and `ofBytes_bytes` go
between a word and its four bytes.
-/

namespace MazdaPort
namespace Words

/-! ## Words -/

def number (ws : List UInt32) : ℕ := Nat.ofDigits (2 ^ 32) (ws.map UInt32.toNat)

@[simp] theorem number_nil : number [] = 0 := rfl

@[simp] theorem number_cons (w : UInt32) (ws : List UInt32) :
    number (w :: ws) = w.toNat + 2 ^ 32 * number ws := by
  unfold number
  rw [List.map_cons, Nat.ofDigits_cons]

theorem number_cons_int (w : UInt32) (ws : List UInt32) :
    (number (w :: ws) : ℤ) = w.toNat + 2 ^ 32 * number ws := by
  rw [number_cons]
  push_cast
  ring

theorem number_append (xs ys : List UInt32) :
    number (xs ++ ys) = number xs + (2 ^ 32) ^ xs.length * number ys := by
  unfold number
  rw [List.map_append, Nat.ofDigits_append, List.length_map]

theorem number_lt (ws : List UInt32) : number ws < (2 ^ 32) ^ ws.length := by
  unfold number
  rw [← List.length_map UInt32.toNat]
  refine Nat.ofDigits_lt_base_pow_length (by decide) ?_
  intro x hx
  obtain ⟨w, -, rfl⟩ := List.mem_map.1 hx
  exact w.toNat_lt

theorem number_zeros (k : ℕ) : number (List.replicate k 0) = 0 := by
  induction k with
  | zero => rfl
  | succ k ih =>
    rw [List.replicate_succ, number_cons, ih]
    rfl

/-- The number by comparing from the highest word down. -/
theorem number_snoc_lt {xs ys : List UInt32} (hlen : xs.length = ys.length) {x y : UInt32}
    (h : x < y) : number (xs ++ [x]) < number (ys ++ [y]) := by
  have hx := number_lt xs
  have hxy : x.toNat + 1 ≤ y.toNat := UInt32.lt_iff_toNat_lt.1 h
  have hmul := Nat.mul_le_mul_left ((2 ^ 32) ^ ys.length) hxy
  rw [hlen] at hx
  rw [number_append, number_append, number_cons, number_cons, number_nil, Nat.mul_zero,
    Nat.add_zero, Nat.add_zero, hlen]
  rw [Nat.mul_add, Nat.mul_one] at hmul
  omega

/-! ## Bytes -/

def ofBytes (bs : List UInt8) : ℕ := Nat.ofDigits 256 (bs.reverse.map UInt8.toNat)

@[simp] theorem ofBytes_nil : ofBytes [] = 0 := rfl

theorem ofBytes_append (xs ys : List UInt8) :
    ofBytes (xs ++ ys) = ofBytes xs * 256 ^ ys.length + ofBytes ys := by
  unfold ofBytes
  rw [List.reverse_append, List.map_append, Nat.ofDigits_append, List.length_map,
    List.length_reverse]
  ring

@[simp] theorem ofBytes_singleton (b : UInt8) : ofBytes [b] = b.toNat := by
  simp [ofBytes]

theorem ofBytes_cons (b : UInt8) (bs : List UInt8) :
    ofBytes (b :: bs) = b.toNat * 256 ^ bs.length + ofBytes bs := by
  have h := ofBytes_append [b] bs
  rwa [ofBytes_singleton] at h

theorem ofBytes_lt (bs : List UInt8) : ofBytes bs < 256 ^ bs.length := by
  unfold ofBytes
  rw [← List.length_reverse, ← List.length_map UInt8.toNat]
  refine Nat.ofDigits_lt_base_pow_length (by decide) ?_
  intro x hx
  obtain ⟨b, -, rfl⟩ := List.mem_map.1 hx
  exact b.toNat_lt

theorem ofBytes_inj {xs ys : List UInt8} (hlen : xs.length = ys.length)
    (h : ofBytes xs = ofBytes ys) : xs = ys := by
  induction xs generalizing ys with
  | nil => exact (List.eq_nil_of_length_eq_zero hlen.symm).symm
  | cons x xs ih =>
    cases ys with
    | nil => cases hlen
    | cons y ys =>
      have hrest : xs.length = ys.length := Nat.succ.inj hlen
      rw [ofBytes_cons, ofBytes_cons, hrest] at h
      have hx := ofBytes_lt xs
      have hy := ofBytes_lt ys
      rw [hrest] at hx
      have hpos : 0 < 256 ^ ys.length := Nat.pow_pos (by decide)
      have htop : x.toNat = y.toNat := by
        have hdiv := congrArg (· / 256 ^ ys.length) h
        simpa [Nat.mul_comm _ (256 ^ ys.length), Nat.mul_add_div hpos, Nat.div_eq_of_lt hx,
          Nat.div_eq_of_lt hy] using hdiv
      rw [htop] at h
      rw [UInt8.toNat_inj.1 htop, ih hrest (Nat.add_left_cancel h)]

/-! ## The bytes of a word -/

def word (a b c d : UInt8) : UInt32 :=
  (a.toUInt32 <<< 24) ||| (b.toUInt32 <<< 16) ||| (c.toUInt32 <<< 8) ||| d.toUInt32

def bytes (w : UInt32) : List UInt8 :=
  [(w >>> 24).toUInt8, (w >>> 16).toUInt8, (w >>> 8).toUInt8, w.toUInt8]

@[simp] theorem bytes_length (w : UInt32) : (bytes w).length = 4 := rfl

theorem word_toNat (a b c d : UInt8) : (word a b c d).toNat = ofBytes [a, b, c, d] := by
  have ha := a.toNat_lt
  have hb := b.toNat_lt
  have hc := c.toNat_lt
  have hd := d.toNat_lt
  have h24 : (a.toUInt32 <<< 24).toNat = 2 ^ 24 * a.toNat := by
    simp only [UInt32.toNat_shiftLeft, UInt8.toNat_toUInt32, Nat.shiftLeft_eq, UInt32.reduceToNat,
      Nat.reduceMod, Nat.reducePow]
    omega
  have h16 : (b.toUInt32 <<< 16).toNat = 2 ^ 16 * b.toNat := by
    simp only [UInt32.toNat_shiftLeft, UInt8.toNat_toUInt32, Nat.shiftLeft_eq, UInt32.reduceToNat,
      Nat.reduceMod, Nat.reducePow]
    omega
  have h8 : (c.toUInt32 <<< 8).toNat = 2 ^ 8 * c.toNat := by
    simp only [UInt32.toNat_shiftLeft, UInt8.toNat_toUInt32, Nat.shiftLeft_eq, UInt32.reduceToNat,
      Nat.reduceMod, Nat.reducePow]
    omega
  unfold word
  rw [UInt32.toNat_or, UInt32.toNat_or, UInt32.toNat_or, h24, h16, h8, UInt8.toNat_toUInt32]
  -- each byte lies below the bits of the ones before it
  have hab : 2 ^ 24 * a.toNat ||| 2 ^ 16 * b.toNat = 2 ^ 16 * (2 ^ 8 * a.toNat + b.toNat) := by
    rw [← Nat.two_pow_add_eq_or_of_lt (by omega)]
    ring
  have habc : 2 ^ 16 * (2 ^ 8 * a.toNat + b.toNat) ||| 2 ^ 8 * c.toNat =
      2 ^ 8 * (2 ^ 8 * (2 ^ 8 * a.toNat + b.toNat) + c.toNat) := by
    rw [← Nat.two_pow_add_eq_or_of_lt (by omega)]
    ring
  rw [hab, habc, ← Nat.two_pow_add_eq_or_of_lt hd]
  simp only [ofBytes_cons, ofBytes_nil, List.length_cons, List.length_nil]
  omega

theorem ofBytes_bytes (w : UInt32) : ofBytes (bytes w) = w.toNat := by
  have hw := w.toNat_lt
  simp only [bytes, ofBytes_cons, ofBytes_nil, List.length_cons, List.length_nil,
    UInt32.toNat_toUInt8, UInt32.toNat_shiftRight, Nat.shiftRight_eq_div_pow, UInt32.reduceToNat,
    Nat.reduceMod, Nat.reducePow]
  omega

theorem ofBytes_flatMap_bytes (ws : List UInt32) :
    ofBytes (ws.reverse.flatMap bytes) = number ws := by
  induction ws with
  | nil => rfl
  | cons w ws ih =>
    rw [List.reverse_cons, List.flatMap_append, ofBytes_append, ih, List.flatMap_singleton,
      ofBytes_bytes, bytes_length, number_cons]
    ring

end Words
end MazdaPort
