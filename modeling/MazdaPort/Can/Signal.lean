import MazdaPort.Lib.Bits

/-!
# MazdaPort.Can.Signal

Signals of a DBC file and `set_value` of `opendbc/can/packer.py`. `setValue_bit`: it writes the
bits of the value into the bits of the signal, and no others.
-/

namespace MazdaPort
namespace Can

open Bits

structure Signal where
  lsb : Nat
  size : Nat
  factor : Rat
  offset : Rat
  isLittleEndian : Bool
  deriving DecidableEq, Repr

/-- The bits of a frame in the order in which a big-endian signal takes them. -/
def beBits : List Nat :=
  (List.range 64).flatMap fun i => [7, 6, 5, 4, 3, 2, 1, 0].map fun j => j + i * 8

/-- A line `SG_ startBit|size@endian (factor,offset)`, as `DBC._parse` reads it. -/
def Signal.ofDbc (startBit size : Nat) (isLittleEndian : Bool) (factor offset : Rat) : Signal :=
  { lsb :=
      if isLittleEndian then startBit
      else beBits.getD (beBits.idxOf startBit + size - 1) 0
    size := size
    factor := factor
    offset := offset
    isLittleEndian := isLittleEndian }

/-- The shift of a pass: only the byte of the least significant bit is entered past its bit 0. -/
def Signal.shiftAt (sig : Signal) (i : Nat) : Nat := if sig.lsb / 8 = i then sig.lsb % 8 else 0

/-- The loop of `set_value`. Every pass takes one bit at least, so `size` passes are enough. -/
def Signal.setLoop (sig : Signal) : Nat → Nat → Nat → Int → List UInt8 → List UInt8
  | 0, _, _, _, msg => msg
  | fuel + 1, i, bits, ival, msg =>
    if i < msg.length ∧ 0 < bits then
      let shift := sig.shiftAt i
      let size := min bits (8 - shift)
      let msg := msg.set i (putField (msg.getD i 0) shift size ival)
      if sig.isLittleEndian then sig.setLoop fuel (i + 1) (bits - size) (ival / 2 ^ size) msg
      else
        match i with
        | 0 => msg
        | i + 1 => sig.setLoop fuel i (bits - size) (ival / 2 ^ size) msg
    else msg

def setValue (msg : List UInt8) (sig : Signal) (ival : Int) : List UInt8 :=
  let ival := if sig.size < 64 then ival % 2 ^ sig.size else ival
  sig.setLoop sig.size (sig.lsb / 8) sig.size ival msg

/-! ## The bits that are written -/

/-- Byte `j` is byte `i` or one that a pass after it comes to. -/
def ahead (isLittleEndian : Bool) (i j : Nat) : Bool := if isLittleEndian then i ≤ j else j ≤ i

/-- How many passes after that of byte `i` byte `j` has its own. -/
def away (isLittleEndian : Bool) (i j : Nat) : Nat := if isLittleEndian then j - i else i - j

/-- Where bit `b` of the frame stands in a value whose `bits` bits begin at bit `shift` of byte
`i`. -/
def indexFrom (isLittleEndian : Bool) (i shift bits b : Nat) : Option Nat :=
  let k := 8 * away isLittleEndian i (b / 8) + b % 8
  if ahead isLittleEndian i (b / 8) ∧ shift ≤ k ∧ k < shift + bits then some (k - shift) else none

def Signal.index (sig : Signal) (b : Nat) : Option Nat :=
  indexFrom sig.isLittleEndian (sig.lsb / 8) (sig.lsb % 8) sig.size b

/-- `v` where the signal is, and the frame elsewhere. -/
def overlay (v : Int) (old : Bool) : Option Nat → Bool
  | some k => intBit v k
  | none => old

theorem overlay_div (v : Int) (old : Bool) (s : Nat) (k : Option Nat) :
    overlay (v / 2 ^ s) old k = overlay v old (k.map fun n => s + n) := by
  cases k with
  | none => rfl
  | some n => exact intBit_div v s n

theorem indexFrom_zero (le : Bool) (i shift b : Nat) : indexFrom le i shift 0 b = none := by
  unfold indexFrom
  rw [if_neg]
  omega

theorem indexFrom_behind {le : Bool} {i b : Nat} (h : ahead le i (b / 8) = false)
    (shift bits : Nat) : indexFrom le i shift bits b = none := by
  unfold indexFrom
  rw [if_neg]
  simp [h]

theorem indexFrom_here (le : Bool) {i b : Nat} (h : b / 8 = i) (shift bits : Nat) :
    indexFrom le i shift bits b =
      if shift ≤ b % 8 ∧ b % 8 < shift + bits then some (b % 8 - shift) else none := by
  subst h
  cases le <;> simp [indexFrom, ahead, away]

/-- The byte of the pass after that of byte `i`. -/
def Follows (isLittleEndian : Bool) (i j : Nat) : Prop :=
  if isLittleEndian then j = i + 1 else i = j + 1

theorem ahead_next {le : Bool} {i j c : Nat} (hj : Follows le i j) (hc : c ≠ i) :
    ahead le i c = ahead le j c := by
  cases le with
  | true =>
    obtain rfl : j = i + 1 := by simpa [Follows] using hj
    rw [ahead, ahead, if_pos rfl, if_pos rfl, decide_eq_decide]
    omega
  | false =>
    obtain rfl : i = j + 1 := by simpa [Follows] using hj
    rw [ahead, ahead, if_neg (by decide), if_neg (by decide), decide_eq_decide]
    omega

theorem away_next {le : Bool} {i j c : Nat} (hj : Follows le i j) (hc : ahead le j c = true) :
    away le i c = away le j c + 1 := by
  cases le with
  | true =>
    obtain rfl : j = i + 1 := by simpa [Follows] using hj
    have hle : i + 1 ≤ c := by simpa [ahead] using hc
    rw [away, away, if_pos rfl, if_pos rfl]
    omega
  | false =>
    obtain rfl : i = j + 1 := by simpa [Follows] using hj
    have hle : c ≤ j := by simpa [ahead] using hc
    rw [away, away, if_neg (by decide), if_neg (by decide)]
    omega

theorem ahead_trans {le : Bool} {a i j : Nat} (h : ahead le a i = true) (hj : Follows le i j) :
    ahead le a j = true ∧ a ≠ j := by
  cases le with
  | true =>
    obtain rfl : j = i + 1 := by simpa [Follows] using hj
    have hle : a ≤ i := by simpa [ahead] using h
    simp only [ahead, if_true, decide_eq_true_eq]
    omega
  | false =>
    obtain rfl : i = j + 1 := by simpa [Follows] using hj
    have hle : j + 1 ≤ a := by simpa [ahead] using h
    simp only [ahead, Bool.false_eq_true, if_false, decide_eq_true_eq]
    omega

theorem not_ahead_next {le : Bool} {i j : Nat} (hj : Follows le i j) : ahead le j i = false := by
  cases le with
  | true =>
    obtain rfl : j = i + 1 := by simpa [Follows] using hj
    simp [ahead]
  | false =>
    obtain rfl : i = j + 1 := by simpa [Follows] using hj
    simp [ahead]

/-- Past the byte at hand, the rest of the value begins with the next byte. -/
theorem indexFrom_next {le : Bool} {i j b : Nat} (hj : Follows le i j) (hb : b / 8 ≠ i)
    {shift : Nat} (hshift : shift < 8) (bits : Nat) :
    indexFrom le i shift bits b =
      (indexFrom le j 0 (bits - min bits (8 - shift)) b).map
        fun n => min bits (8 - shift) + n := by
  unfold indexFrom
  rw [ahead_next hj hb]
  cases hahead : ahead le j (b / 8) with
  | false => simp
  | true =>
    rw [away_next hj hahead]
    dsimp only
    by_cases hlast : bits ≤ 8 - shift
    · have hmin : min bits (8 - shift) = bits := by omega
      rw [if_neg (by omega), if_neg (by omega)]
      rfl
    · have hmin : min bits (8 - shift) = 8 - shift := by omega
      rw [hmin]
      by_cases hin : 8 * (away le j (b / 8) + 1) + b % 8 < shift + bits
      · rw [if_pos ⟨rfl, by omega, hin⟩, if_pos ⟨rfl, by omega, by omega⟩, Option.map_some]
        congr 1
        omega
      · rw [if_neg (by omega), if_neg (by omega)]
        rfl

/-! ## The loop -/

theorem setLoop_length (sig : Signal) (fuel i bits : Nat) (ival : Int) (msg : List UInt8) :
    (sig.setLoop fuel i bits ival msg).length = msg.length := by
  induction fuel generalizing i bits ival msg with
  | zero => rfl
  | succ fuel ih =>
    unfold Signal.setLoop
    split
    · dsimp only
      split
      · rw [ih, List.length_set]
      · cases i with
        | zero => rw [List.length_set]
        | succ i => rw [ih, List.length_set]
    · rfl

theorem setValue_length (msg : List UInt8) (sig : Signal) (ival : Int) :
    (setValue msg sig ival).length = msg.length := setLoop_length _ _ _ _ _ _

theorem Signal.shiftAt_lt (sig : Signal) (i : Nat) : sig.shiftAt i < 8 := by
  unfold shiftAt
  split <;> omega

/-- One pass, for a byte with a later one: what the later passes do not reach is as this pass
leaves it. -/
theorem putField_overlay {i shift bits b : Nat} (le : Bool) (ival : Int) {msg : List UInt8}
    (hi : i < msg.length) (hb : b / 8 = i) :
    bit (msg.set i (putField (msg.getD i 0) shift (min bits (8 - shift)) ival)) b =
      overlay ival (bit msg b) (indexFrom le i shift bits b) := by
  have hr : b % 8 < 8 := Nat.mod_lt _ (by decide)
  rw [bit_set _ hi, if_pos hb, putField_bit _ _ _ _ hr, indexFrom_here le hb]
  by_cases hin : shift ≤ b % 8 ∧ b % 8 < shift + bits
  · rw [if_pos (by omega), if_pos hin]
    rfl
  · rw [if_neg (by omega), if_neg hin]
    simp [overlay, bit, hb]

theorem setLoop_bit (sig : Signal) {fuel i bits : Nat} (ival : Int) {msg : List UInt8} {b : Nat}
    (hfuel : bits ≤ fuel) (hb : b / 8 < msg.length)
    (hi : sig.isLittleEndian = false → i < msg.length)
    (hstart : ahead sig.isLittleEndian (sig.lsb / 8) i = true) :
    bit (sig.setLoop fuel i bits ival msg) b =
      overlay ival (bit msg b) (indexFrom sig.isLittleEndian i (sig.shiftAt i) bits b) := by
  induction fuel generalizing i bits ival msg with
  | zero =>
    obtain rfl : bits = 0 := by omega
    rw [indexFrom_zero]
    rfl
  | succ fuel ih =>
    have hshift := sig.shiftAt_lt i
    unfold Signal.setLoop
    by_cases hmore : i < msg.length ∧ 0 < bits
    · rw [if_pos hmore]
      obtain ⟨hlen, hbits⟩ := hmore
      have hhere : b / 8 = i → bit (msg.set i (putField (msg.getD i 0) (sig.shiftAt i)
          (min bits (8 - sig.shiftAt i)) ival)) b =
          overlay ival (bit msg b) (indexFrom sig.isLittleEndian i (sig.shiftAt i) bits b) :=
        putField_overlay _ ival hlen
      -- this pass and the passes from byte `j` on
      have hrest : ∀ j, Follows sig.isLittleEndian i j →
          bit (sig.setLoop fuel j (bits - min bits (8 - sig.shiftAt i))
            (ival / 2 ^ min bits (8 - sig.shiftAt i))
            (msg.set i (putField (msg.getD i 0) (sig.shiftAt i)
              (min bits (8 - sig.shiftAt i)) ival))) b =
          overlay ival (bit msg b) (indexFrom sig.isLittleEndian i (sig.shiftAt i) bits b) := by
        intro j hj
        obtain ⟨hahead, hne⟩ := ahead_trans hstart hj
        have hj' : sig.isLittleEndian = false → j < (msg.set i (putField (msg.getD i 0)
            (sig.shiftAt i) (min bits (8 - sig.shiftAt i)) ival)).length := by
          intro hbe
          simp only [Follows, hbe, Bool.false_eq_true, if_false] at hj
          rw [List.length_set]
          omega
        rw [ih _ (by omega) (by rwa [List.length_set]) hj' hahead]
        by_cases hb' : b / 8 = i
        · rw [indexFrom_behind (by rw [hb']; exact not_ahead_next hj)]
          exact hhere hb'
        · have hzero : sig.shiftAt j = 0 := if_neg hne
          rw [hzero, overlay_div, ← indexFrom_next hj hb' hshift, bit_set _ hlen, if_neg hb']
      cases hle : sig.isLittleEndian with
      | true =>
        rw [hle] at hrest
        exact hrest (i + 1) rfl
      | false =>
        rw [hle] at hrest hhere
        cases i with
        | succ i => exact hrest i rfl
        | zero =>
          by_cases hb' : b / 8 = 0
          · exact hhere hb'
          · have hbehind : ahead false 0 (b / 8) = false := by simpa [ahead] using hb'
            rw [indexFrom_behind hbehind]
            exact (bit_set _ hlen _ b).trans (if_neg hb')
    · rw [if_neg hmore]
      by_cases hbits : bits = 0
      · rw [hbits, indexFrom_zero]
        rfl
      · have hbehind : ahead sig.isLittleEndian i (b / 8) = false := by
          cases hle : sig.isLittleEndian with
          | true =>
            simp only [ahead, if_true, decide_eq_false_iff_not]
            omega
          | false =>
            have hlen := hi hle
            omega
        rw [indexFrom_behind hbehind]
        rfl

theorem Signal.index_lt {sig : Signal} {b k : Nat} (h : sig.index b = some k) : k < sig.size := by
  simp only [Signal.index, indexFrom] at h
  split at h
  · next hin =>
    cases h
    omega
  · cases h

/-- `set_value` writes the value's bits where the signal is and leaves the other bits alone. -/
theorem setValue_bit (msg : List UInt8) (sig : Signal) (ival : Int) {b : Nat}
    (hb : b / 8 < msg.length) (hlsb : sig.lsb / 8 < msg.length) :
    bit (setValue msg sig ival) b = overlay ival (bit msg b) (sig.index b) := by
  have hstart : ahead sig.isLittleEndian (sig.lsb / 8) (sig.lsb / 8) = true := by simp [ahead]
  have hshift : sig.shiftAt (sig.lsb / 8) = sig.lsb % 8 := if_pos rfl
  unfold setValue
  rw [setLoop_bit sig _ (le_refl _) hb (fun _ => hlsb) hstart, hshift]
  change overlay _ _ (sig.index b) = _
  cases hk : sig.index b with
  | none => rfl
  | some k =>
    have hlt := Signal.index_lt hk
    simp only [overlay]
    split
    · exact intBit_emod ival hlt
    · rfl

/-- A byte that has no bit of the signal. -/
theorem setValue_other (msg : List UInt8) (sig : Signal) (ival : Int) {j : Nat}
    (hlsb : sig.lsb / 8 < msg.length) (hj : ∀ r < 8, sig.index (8 * j + r) = none) :
    (setValue msg sig ival).getD j 0 = msg.getD j 0 := by
  by_cases hlen : j < msg.length
  · refine getD_eq_of_bits fun r hr => ?_
    have hbyte : (8 * j + r) / 8 < msg.length := by omega
    rw [setValue_bit msg sig ival hbyte hlsb, hj r hr]
    rfl
  · rw [List.getD_eq_default _ _ (by rw [setValue_length]; omega),
      List.getD_eq_default _ _ (by omega)]

end Can
end MazdaPort
