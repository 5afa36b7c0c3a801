import MazdaPort.Can.Signal
import Mathlib.Algebra.Order.Field.Rat

/-!
# MazdaPort.Can.Parser

`get_raw_value` of `opendbc/can/parser.py`. `getRawValue_testBit`: bit `k` of the value it reads is
the bit of the frame at `sig.bitAt k`. With `setValue_bit` this gives the round trip
(`getRawValue_setValue`) and its frame half (`getRawValue_setValue_other`).
-/

namespace MazdaPort
namespace Can

open Bits

/-- A big-endian signal starts `size - 1` places before `lsb` in the order of `beBits`. -/
def Signal.msb (sig : Signal) : Nat :=
  if sig.isLittleEndian then sig.lsb + sig.size - 1
  else
    let place := 8 * (sig.lsb / 8) + 7 - sig.lsb % 8 - (sig.size - 1)
    8 * (place / 8) + (7 - place % 8)

/-- The loop of `get_raw_value`. -/
def Signal.rawLoop (sig : Signal) (dat : List UInt8) : Nat → Nat → Nat → Nat → Nat
  | 0, _, _, ret => ret
  | fuel + 1, i, bits, ret =>
    if i < dat.length ∧ 0 < bits then
      let lsb := if sig.lsb / 8 = i then sig.lsb else i * 8
      let msb := if sig.msb / 8 = i then sig.msb else (i + 1) * 8 - 1
      let size := msb + 1 - lsb
      let d := ((dat.getD i 0).toNat >>> (lsb - i * 8)) &&& (2 ^ size - 1)
      let ret := ret ||| d <<< (bits - size)
      if sig.isLittleEndian then
        match i with
        | 0 => ret
        | i + 1 => sig.rawLoop dat fuel i (bits - size) ret
      else sig.rawLoop dat fuel (i + 1) (bits - size) ret
    else ret

def getRawValue (dat : List UInt8) (sig : Signal) : Nat :=
  sig.rawLoop dat sig.size (sig.msb / 8) sig.size 0

/-- The physical value of an unsigned signal, as `MessageState.parse` stores it. -/
def parseSignal (dat : List UInt8) (sig : Signal) : Rat :=
  getRawValue dat sig * sig.factor + sig.offset

/-- Neither scaled nor shifted. -/
def Signal.Plain (sig : Signal) : Prop := sig.factor = 1 ∧ sig.offset = 0

instance (sig : Signal) : Decidable sig.Plain := by
  unfold Signal.Plain
  infer_instance

theorem Signal.Plain.parse {sig : Signal} (h : sig.Plain) (raw : List UInt8) :
    parseSignal raw sig = getRawValue raw sig := by
  rw [parseSignal, h.1, h.2, mul_one, add_zero]

/-! ## Where a signal is -/

/-- The byte `a` bytes up from that of the least significant bit. -/
def Signal.byteAt (sig : Signal) (a : Nat) : Nat :=
  if sig.isLittleEndian then sig.lsb / 8 + a else sig.lsb / 8 - a

/-- The bit of the frame that holds bit `k` of the value. -/
def Signal.bitAt (sig : Signal) (k : Nat) : Nat :=
  8 * sig.byteAt ((sig.lsb % 8 + k) / 8) + (sig.lsb % 8 + k) % 8

/-- The number of bytes of the signal, less one. -/
def Signal.top (sig : Signal) : Nat := (sig.lsb % 8 + sig.size - 1) / 8

/-- The signal is inside a frame of `n` bytes. -/
def Signal.Fits (sig : Signal) (n : Nat) : Prop :=
  0 < sig.size ∧ sig.lsb / 8 < n ∧
    if sig.isLittleEndian then sig.lsb / 8 + sig.top < n else sig.top ≤ sig.lsb / 8

instance (sig : Signal) (n : Nat) : Decidable (sig.Fits n) := by
  unfold Signal.Fits
  infer_instance

theorem Signal.Fits.mono {sig : Signal} {n m : Nat} (h : sig.Fits n) (hnm : n ≤ m) :
    sig.Fits m := by
  obtain ⟨hsize, hlsb, htop⟩ := h
  refine ⟨hsize, by omega, ?_⟩
  cases hle : sig.isLittleEndian with
  | true =>
    simp only [hle, if_true] at htop ⊢
    omega
  | false =>
    simp only [hle, Bool.false_eq_true, if_false] at htop ⊢
    exact htop

/-- The most significant bit is in the last byte of the signal. -/
theorem Signal.Fits.msb {sig : Signal} {n : Nat} (h : sig.Fits n) :
    sig.msb / 8 = sig.byteAt sig.top ∧ sig.msb % 8 = (sig.lsb % 8 + sig.size - 1) % 8 := by
  obtain ⟨hsize, -, htop⟩ := h
  unfold Signal.msb Signal.byteAt
  simp only [Signal.top] at htop ⊢
  cases hle : sig.isLittleEndian with
  | true =>
    simp only [if_true]
    omega
  | false =>
    simp only [hle, Bool.false_eq_true, if_false] at htop ⊢
    omega

theorem Signal.Fits.byteAt_lt {sig : Signal} {n a : Nat} (h : sig.Fits n) (ha : a ≤ sig.top) :
    sig.byteAt a < n := by
  obtain ⟨-, hlsb, htop⟩ := h
  unfold Signal.byteAt
  cases hle : sig.isLittleEndian with
  | true =>
    simp only [hle, if_true] at htop ⊢
    omega
  | false =>
    simp only [Bool.false_eq_true, if_false]
    omega

theorem Signal.Fits.byteAt_inj {sig : Signal} {n a a' : Nat} (h : sig.Fits n) (ha : a ≤ sig.top)
    (ha' : a' ≤ sig.top) (heq : sig.byteAt a = sig.byteAt a') : a = a' := by
  obtain ⟨-, -, htop⟩ := h
  unfold Signal.byteAt at heq
  cases hle : sig.isLittleEndian with
  | true =>
    simp only [hle, if_true] at heq
    omega
  | false =>
    simp only [hle, Bool.false_eq_true, if_false] at htop heq
    omega

theorem Signal.place_le_top {sig : Signal} {k : Nat} (hk : k < sig.size) :
    (sig.lsb % 8 + k) / 8 ≤ sig.top := by
  unfold Signal.top
  omega

theorem Signal.Fits.bitAt_lt {sig : Signal} {n k : Nat} (h : sig.Fits n) (hk : k < sig.size) :
    sig.bitAt k / 8 < n := by
  have hbyte := h.byteAt_lt (Signal.place_le_top hk)
  unfold Signal.bitAt
  omega

theorem Signal.Fits.index_bitAt {sig : Signal} {n k : Nat} (h : sig.Fits n) (hk : k < sig.size) :
    sig.index (sig.bitAt k) = some k := by
  obtain ⟨-, -, htop⟩ := h
  have hplace := Signal.place_le_top hk
  unfold Signal.index indexFrom Signal.bitAt Signal.byteAt ahead away
  cases hle : sig.isLittleEndian with
  | true =>
    simp only [if_true]
    rw [if_pos (by simp only [decide_eq_true_eq]; omega)]
    congr 1
    omega
  | false =>
    simp only [hle, Bool.false_eq_true, if_false] at htop ⊢
    rw [if_pos (by simp only [decide_eq_true_eq]; omega)]
    congr 1
    omega

/-! ## The loop -/

theorem rawLoop_done (sig : Signal) (dat : List UInt8) (fuel i ret : Nat) :
    sig.rawLoop dat fuel i 0 ret = ret := by
  cases fuel with
  | zero => rfl
  | succ fuel =>
    unfold Signal.rawLoop
    rw [if_neg (by omega)]

/-- How many bits are left when the pass comes to the byte `a` bytes up from the lowest. -/
def Signal.left (sig : Signal) (a : Nat) : Nat :=
  if a = sig.top then sig.size else 8 * (a + 1) - sig.lsb % 8

/-- The place in its byte of the lowest bit that the pass takes. -/
def Signal.first (sig : Signal) (a : Nat) : Nat := if a = 0 then sig.lsb % 8 else 0

/-- How many bits the pass takes. -/
def Signal.width (sig : Signal) (a : Nat) : Nat :=
  (if a = sig.top then (sig.lsb % 8 + sig.size - 1) % 8 else 7) + 1 - sig.first a

theorem Signal.left_eq {sig : Signal} {a : Nat} (hpos : 0 < sig.size) :
    sig.left a = 8 * a - sig.lsb % 8 + sig.width a := by
  have htop : sig.top = (sig.lsb % 8 + sig.size - 1) / 8 := rfl
  unfold Signal.left Signal.width Signal.first
  by_cases ht : a = sig.top
  · rw [if_pos ht, if_pos ht]
    split <;> omega
  · rw [if_neg ht, if_neg ht]
    split <;> omega

theorem Signal.Fits.pass_first {sig : Signal} {n a : Nat} (hfit : sig.Fits n) (ha : a ≤ sig.top) :
    (if sig.lsb / 8 = sig.byteAt a then sig.lsb else sig.byteAt a * 8) =
      8 * sig.byteAt a + sig.first a := by
  have hzero : sig.lsb / 8 = sig.byteAt 0 := by
    unfold Signal.byteAt
    split <;> rfl
  unfold Signal.first
  by_cases h0 : a = 0
  · subst h0
    rw [if_pos hzero, if_pos rfl]
    omega
  · have hne : ¬ sig.lsb / 8 = sig.byteAt a := by
      intro h
      exact h0 (hfit.byteAt_inj ha (Nat.zero_le _) (h.symm.trans hzero))
    rw [if_neg hne, if_neg h0]
    omega

theorem Signal.Fits.pass_width {sig : Signal} {n a : Nat} (hfit : sig.Fits n) (ha : a ≤ sig.top) :
    (if sig.msb / 8 = sig.byteAt a then sig.msb else (sig.byteAt a + 1) * 8 - 1) + 1 -
      (8 * sig.byteAt a + sig.first a) = sig.width a := by
  obtain ⟨hmsb, hmod⟩ := hfit.msb
  unfold Signal.width
  by_cases ht : a = sig.top
  · subst ht
    rw [if_pos hmsb, if_pos rfl, ← hmod]
    omega
  · have hne : ¬ sig.msb / 8 = sig.byteAt a := by
      intro h
      exact ht (hfit.byteAt_inj ha (le_refl _) (h.symm.trans hmsb))
    rw [if_neg hne, if_neg ht]
    omega

/-- The bits that the pass takes are those of its byte. -/
theorem Signal.place_of_left {sig : Signal} {a k : Nat} (hge : 8 * a - sig.lsb % 8 ≤ k)
    (hlt : k < sig.left a) :
    (sig.lsb % 8 + k) / 8 = a ∧
      (sig.lsb % 8 + k) % 8 = sig.first a + (k - (8 * a - sig.lsb % 8)) := by
  have htop : sig.top = (sig.lsb % 8 + sig.size - 1) / 8 := rfl
  unfold Signal.left at hlt
  unfold Signal.first
  by_cases ht : a = sig.top
  · rw [if_pos ht] at hlt
    split <;> omega
  · rw [if_neg ht] at hlt
    split <;> omega

/-- One pass: it puts the bits of its byte above those of the bytes that are left. -/
theorem rawPass_testBit {sig : Signal} {dat : List UInt8} {a : Nat} (hfit : sig.Fits dat.length)
    (ha : a ≤ sig.top) (ret k : Nat) :
    let lsb := if sig.lsb / 8 = sig.byteAt a then sig.lsb else sig.byteAt a * 8
    let msb := if sig.msb / 8 = sig.byteAt a then sig.msb else (sig.byteAt a + 1) * 8 - 1
    let size := msb + 1 - lsb
    let d := ((dat.getD (sig.byteAt a) 0).toNat >>> (lsb - sig.byteAt a * 8)) &&& (2 ^ size - 1)
    sig.left a - size = 8 * a - sig.lsb % 8 ∧
      (ret ||| d <<< (sig.left a - size)).testBit k =
        (ret.testBit k || decide (8 * a - sig.lsb % 8 ≤ k ∧ k < sig.left a) &&
          bit dat (sig.bitAt k)) := by
  have hleft := sig.left_eq hfit.1 (a := a)
  have hdown : sig.left a - sig.width a = 8 * a - sig.lsb % 8 := by omega
  have hlow : 8 * sig.byteAt a + sig.first a - sig.byteAt a * 8 = sig.first a := by omega
  have hnat : ∀ (b : UInt8) (r : Nat), b.toNat.testBit r = byteBit b r := fun _ _ => rfl
  rw [hfit.pass_first ha]
  dsimp only
  rw [hfit.pass_width ha, hdown, hlow]
  refine ⟨rfl, ?_⟩
  rw [Nat.testBit_or, Nat.testBit_shiftLeft, Nat.testBit_and, Nat.testBit_shiftRight,
    Nat.testBit_two_pow_sub_one, hnat]
  by_cases hin : 8 * a - sig.lsb % 8 ≤ k ∧ k < sig.left a
  · obtain ⟨hbyte, hplace⟩ := Signal.place_of_left hin.1 hin.2
    have hk : k - (8 * a - sig.lsb % 8) < sig.width a := by omega
    have hr : (sig.lsb % 8 + k) % 8 < 8 := Nat.mod_lt _ (Nat.zero_lt_succ 7)
    have hbit : bit dat (sig.bitAt k) =
        byteBit (dat.getD (sig.byteAt a) 0) ((sig.lsb % 8 + k) % 8) := by
      unfold bit Signal.bitAt
      rw [hbyte, Nat.mul_add_div (Nat.zero_lt_succ 7), Nat.div_eq_of_lt hr, Nat.add_zero,
        Nat.mul_add_mod, Nat.mod_mod]
    rw [hbit, hplace]
    simp [hin, hk]
  · simp only [hin, decide_false, Bool.false_and, Bool.or_false]
    by_cases hge : 8 * a - sig.lsb % 8 ≤ k
    · have hk : ¬ k - (8 * a - sig.lsb % 8) < sig.width a := by
        intro h
        exact hin ⟨hge, by omega⟩
      simp [hk]
    · simp [hge]

/-- The bytes from `a` on down, by induction on their number. -/
theorem rawLoop_testBit {sig : Signal} {dat : List UInt8} (hfit : sig.Fits dat.length) {a : Nat}
    (ha : a ≤ sig.top) {fuel : Nat} (hfuel : sig.left a ≤ fuel) (ret k : Nat) :
    (sig.rawLoop dat fuel (sig.byteAt a) (sig.left a) ret).testBit k =
      (ret.testBit k || decide (k < sig.left a) && bit dat (sig.bitAt k)) := by
  induction a generalizing fuel ret with
  | zero =>
    have hlen := hfit.byteAt_lt ha
    have hleft : 0 < sig.left 0 := by
      have hpos := hfit.1
      unfold Signal.left
      split <;> omega
    obtain ⟨fuel, rfl⟩ : ∃ n, fuel = n + 1 := ⟨fuel - 1, by omega⟩
    obtain ⟨hnone, hbits⟩ := rawPass_testBit hfit ha ret k
    have hzero : 8 * 0 - sig.lsb % 8 = 0 := by omega
    rw [hzero] at hnone hbits
    simp only [Nat.zero_le, true_and] at hbits
    unfold Signal.rawLoop
    rw [if_pos ⟨hlen, hleft⟩]
    dsimp only
    rw [hnone] at hbits ⊢
    rw [← hbits]
    split
    · split
      · rfl
      · rw [rawLoop_done]
    · rw [rawLoop_done]
  | succ a ih =>
    have hlen := hfit.byteAt_lt ha
    have hleft : 0 < sig.left (a + 1) := by
      have hpos := hfit.1
      unfold Signal.left
      split <;> omega
    obtain ⟨fuel, rfl⟩ : ∃ n, fuel = n + 1 := ⟨fuel - 1, by omega⟩
    obtain ⟨hnext, hbits⟩ := rawPass_testBit hfit ha ret k
    have hrest : sig.left a = 8 * (a + 1) - sig.lsb % 8 := if_neg (by omega)
    have hless : sig.left a ≤ fuel := by
      have hshrink : sig.left a < sig.left (a + 1) := by
        have htop : sig.top = (sig.lsb % 8 + sig.size - 1) / 8 := rfl
        have hpos := hfit.1
        rw [hrest]
        unfold Signal.left
        split <;> omega
      omega
    unfold Signal.rawLoop
    rw [if_pos ⟨hlen, hleft⟩]
    dsimp only
    rw [hnext, ← hrest] at hbits ⊢
    -- the pass after this one is that of byte `a`
    have hpass : ∀ ret', ret'.testBit k = (ret.testBit k ||
        decide (sig.left a ≤ k ∧ k < sig.left (a + 1)) && bit dat (sig.bitAt k)) →
        (sig.rawLoop dat fuel (sig.byteAt a) (sig.left a) ret').testBit k =
          (ret.testBit k || decide (k < sig.left (a + 1)) && bit dat (sig.bitAt k)) := by
      intro ret' hret
      rw [ih (by omega) hless, hret]
      by_cases hk : k < sig.left a
      · have hmore : k < sig.left (a + 1) := by omega
        simp [hk, hmore, Nat.not_le.2 hk]
      · simp [hk, Nat.not_lt.1 hk]
    cases hle : sig.isLittleEndian with
    | true =>
      have hbyte : sig.byteAt (a + 1) = sig.byteAt a + 1 := by
        simp only [Signal.byteAt, hle, if_true]
        omega
      simp only [hbyte, if_true] at hbits ⊢
      exact hpass _ hbits
    | false =>
      have hbyte : sig.byteAt (a + 1) + 1 = sig.byteAt a := by
        have htop := hfit.2.2
        simp only [hle, Bool.false_eq_true, if_false] at htop
        simp only [Signal.byteAt, hle, Bool.false_eq_true, if_false]
        omega
      simp only [Bool.false_eq_true, if_false, hbyte] at hbits ⊢
      exact hpass _ hbits

/-- `get_raw_value` reads the bits of the signal and no others. -/
theorem getRawValue_testBit {sig : Signal} {dat : List UInt8} (hfit : sig.Fits dat.length)
    (k : Nat) :
    (getRawValue dat sig).testBit k = (decide (k < sig.size) && bit dat (sig.bitAt k)) := by
  have hall : sig.left sig.top = sig.size := if_pos rfl
  unfold getRawValue
  rw [hfit.msb.1]
  have hloop := rawLoop_testBit hfit (le_refl sig.top) (le_of_eq hall) 0 k
  rw [hall] at hloop
  simpa using hloop

/-! ## What is read back -/

theorem getRawValue_setValue {sig : Signal} {msg : List UInt8} (hfit : sig.Fits msg.length)
    (ival : Int) : getRawValue (setValue msg sig ival) sig = (ival % 2 ^ sig.size).toNat := by
  have hfit' : sig.Fits (setValue msg sig ival).length := by rwa [setValue_length]
  refine Nat.eq_of_testBit_eq fun k => ?_
  rw [getRawValue_testBit hfit']
  by_cases hk : k < sig.size
  · rw [setValue_bit msg sig ival (hfit.bitAt_lt hk) hfit.2.1, hfit.index_bitAt hk,
      testBit_emod ival hk]
    simp [hk, overlay]
  · rw [testBit_emod_ge ival (Nat.not_lt.1 hk)]
    simp [hk]

/-- A second signal that is written over the first and repeats its bits. -/
theorem getRawValue_setValue_repeat {sig other : Signal} {msg : List UInt8}
    (hfit : sig.Fits msg.length) (hother : other.Fits msg.length) {v w : Int}
    (hsame : ∀ k < sig.size, overlay w (intBit v k) (other.index (sig.bitAt k)) = intBit v k) :
    getRawValue (setValue (setValue msg sig v) other w) sig = (v % 2 ^ sig.size).toNat := by
  have hlen : (setValue msg sig v).length = msg.length := setValue_length _ _ _
  have hfit' : sig.Fits (setValue (setValue msg sig v) other w).length := by
    rwa [setValue_length, hlen]
  refine Nat.eq_of_testBit_eq fun k => ?_
  rw [getRawValue_testBit hfit']
  by_cases hk : k < sig.size
  · have hbyte := hfit.bitAt_lt hk
    rw [setValue_bit _ other w (by rwa [hlen]) (by rw [hlen]; exact hother.2.1),
      setValue_bit msg sig v hbyte hfit.2.1, hfit.index_bitAt hk, testBit_emod v hk]
    simpa [hk, overlay] using hsame k hk
  · rw [testBit_emod_ge v (Nat.not_lt.1 hk)]
    simp [hk]

/-- Frames that agree on the bits of a signal have one value for it. -/
theorem getRawValue_congr {sig : Signal} {dat dat' : List UInt8} (hfit : sig.Fits dat.length)
    (hfit' : sig.Fits dat'.length)
    (h : ∀ k < sig.size, bit dat (sig.bitAt k) = bit dat' (sig.bitAt k)) :
    getRawValue dat sig = getRawValue dat' sig := by
  refine Nat.eq_of_testBit_eq fun k => ?_
  rw [getRawValue_testBit hfit, getRawValue_testBit hfit']
  by_cases hk : k < sig.size
  · rw [h k hk]
  · simp [hk]

/-- `sig` has no bit of `other`. -/
def Signal.Apart (sig other : Signal) : Prop := ∀ k < other.size, sig.index (other.bitAt k) = none

instance (sig other : Signal) : Decidable (sig.Apart other) := by
  unfold Signal.Apart
  infer_instance

theorem getRawValue_setValue_other {sig other : Signal} {msg : List UInt8}
    (hfit : sig.Fits msg.length) (hother : other.Fits msg.length) (hapart : sig.Apart other)
    (ival : Int) : getRawValue (setValue msg sig ival) other = getRawValue msg other := by
  refine getRawValue_congr (by rwa [setValue_length]) hother fun k hk => ?_
  rw [setValue_bit msg sig ival (hother.bitAt_lt hk) hfit.2.1, hapart k hk]
  rfl

end Can
end MazdaPort
