import MazdaPort.Can.Parser
import MazdaPort.Lib.Rounding
import MazdaPort.Longitudinal.CrzInfo

/-!
# MazdaPort.Longitudinal.Patch

Frames made by `_patch_signal` one signal after the other. `bit_patchAll`: a bit of the frame is
the one that the last patch over it wrote, and that of the base where there is none. From it,
`getRawValue_patchAll`: signals that keep apart are each read back as they were written, and
`bit_patchAll_other` for what no patch touches.
-/

namespace MazdaPort
namespace Longitudinal

open Bits Can
open Steering (pyRound)

/-- The integer that `_patch_signal` hands to `set_value`. -/
def encode (sig : Signal) (value : Rat) : Int :=
  let encoded := pyRound ((value - sig.offset) / sig.factor)
  if encoded < 0 then 2 ^ sig.size + encoded else encoded

theorem patchSignal_eq (raw : List UInt8) (sig : Signal) (value : Rat) :
    patchSignal raw sig value = setValue raw sig (encode sig value) := rfl

theorem patchSignal_length (raw : List UInt8) (sig : Signal) (value : Rat) :
    (patchSignal raw sig value).length = raw.length := setValue_length _ _ _

theorem pyRound_eq (q : Rat) : pyRound q = Rounding.nearestEven q := rfl

theorem encode_eq {sig : Signal} {value : Rat} {n : Int}
    (hvalue : (value - sig.offset) / sig.factor = n) (hn : 0 ≤ n) : encode sig value = n := by
  unfold encode
  rw [hvalue, pyRound_eq, Rounding.nearestEven_intCast, if_neg (by omega)]

/-! ## A list of patches -/

def patchAll (raw : List UInt8) (patches : List (Signal × Rat)) : List UInt8 :=
  patches.foldl (fun raw p => patchSignal raw p.1 p.2) raw

@[simp] theorem patchAll_nil (raw : List UInt8) : patchAll raw [] = raw := rfl

@[simp] theorem patchAll_cons (raw : List UInt8) (p : Signal × Rat)
    (patches : List (Signal × Rat)) :
    patchAll raw (p :: patches) = patchAll (patchSignal raw p.1 p.2) patches := rfl

theorem patchAll_append (raw : List UInt8) (patches later : List (Signal × Rat)) :
    patchAll raw (patches ++ later) = patchAll (patchAll raw patches) later :=
  List.foldl_append

/-- What the last of the patches over bit `b` writes there. -/
def written (b : Nat) (patches : List (Signal × Rat)) (old : Bool) : Bool :=
  patches.foldl (fun old p => overlay (encode p.1 p.2) old (p.1.index b)) old

theorem patchAll_length (raw : List UInt8) (patches : List (Signal × Rat)) :
    (patchAll raw patches).length = raw.length := by
  induction patches generalizing raw with
  | nil => rfl
  | cons p patches ih =>
    rw [patchAll_cons, ih, patchSignal_length]

theorem bit_patchAll {raw : List UInt8} {patches : List (Signal × Rat)}
    (hfit : ∀ p ∈ patches, p.1.Fits raw.length) {b : Nat} (hb : b / 8 < raw.length) :
    bit (patchAll raw patches) b = written b patches (bit raw b) := by
  induction patches generalizing raw with
  | nil => rfl
  | cons p patches ih =>
    have hlen := patchSignal_length raw p.1 p.2
    have hp := hfit p (List.mem_cons_self ..)
    rw [patchAll_cons, written, List.foldl_cons, ← written,
      ih (fun q hq => by rw [hlen]; exact hfit q (List.mem_cons_of_mem _ hq)) (by rwa [hlen]),
      patchSignal_eq, setValue_bit raw p.1 _ hb hp.2.1]

theorem written_other {b : Nat} {patches : List (Signal × Rat)}
    (h : ∀ p ∈ patches, p.1.index b = none) (old : Bool) : written b patches old = old := by
  induction patches generalizing old with
  | nil => rfl
  | cons p patches ih =>
    rw [written, List.foldl_cons, ← written, h p (List.mem_cons_self ..)]
    exact ih (fun q hq => h q (List.mem_cons_of_mem _ hq)) old

/-- No patch has the bit. -/
theorem bit_patchAll_other {raw : List UInt8} {patches : List (Signal × Rat)}
    (hfit : ∀ p ∈ patches, p.1.Fits raw.length) {b : Nat} (hb : b / 8 < raw.length)
    (h : ∀ p ∈ patches, p.1.index b = none) : bit (patchAll raw patches) b = bit raw b := by
  rw [bit_patchAll hfit hb, written_other h]

/-- A signal that no patch touches. -/
theorem getRawValue_patchAll_other {raw : List UInt8} {patches : List (Signal × Rat)}
    (hfit : ∀ p ∈ patches, p.1.Fits raw.length) {sig : Signal} (hsig : sig.Fits raw.length)
    (hapart : ∀ p ∈ patches, p.1.Apart sig) :
    getRawValue (patchAll raw patches) sig = getRawValue raw sig := by
  refine getRawValue_congr (by rwa [patchAll_length]) hsig fun k hk => ?_
  exact bit_patchAll_other hfit (hsig.bitAt_lt hk) fun p hp => hapart p hp k hk

/-- A patch that the later ones keep apart from. -/
theorem getRawValue_patchAll_split {raw : List UInt8} {patches later : List (Signal × Rat)}
    {sig : Signal} {value : Rat}
    (hfit : ∀ p ∈ patches ++ (sig, value) :: later, p.1.Fits raw.length)
    (hapart : ∀ p ∈ later, p.1.Apart sig) :
    getRawValue (patchAll raw (patches ++ (sig, value) :: later)) sig =
      (encode sig value % 2 ^ sig.size).toNat := by
  have hlen : (patchAll raw patches).length = raw.length := patchAll_length _ _
  have hsig : sig.Fits raw.length := hfit _ (List.mem_append_right _ (List.mem_cons_self ..))
  have hlater : ∀ p ∈ later, p.1.Fits raw.length := by
    intro p hp
    exact hfit p (List.mem_append_right _ (List.mem_cons_of_mem _ hp))
  have hnext := patchSignal_length (patchAll raw patches) sig value
  rw [patchAll_append, patchAll_cons,
    getRawValue_patchAll_other (by rwa [hnext, hlen]) (by rwa [hnext, hlen]) hapart,
    patchSignal_eq, getRawValue_setValue (by rwa [hlen])]

/-- Each of a list of signals that keep apart is read back. -/
theorem getRawValue_patchAll {raw : List UInt8} {patches : List (Signal × Rat)}
    (hfit : ∀ p ∈ patches, p.1.Fits raw.length)
    (hapart : patches.Pairwise fun p q => q.1.Apart p.1) {sig : Signal} {value : Rat}
    (hmem : (sig, value) ∈ patches) :
    getRawValue (patchAll raw patches) sig = (encode sig value % 2 ^ sig.size).toNat := by
  obtain ⟨before, later, rfl⟩ := List.append_of_mem hmem
  have hlater := (List.pairwise_append.1 hapart).2.1
  exact getRawValue_patchAll_split hfit (List.pairwise_cons.1 hlater).1

/-! ## Physical values -/

/-- A value that the signal can hold is read back as it was written. -/
theorem parseSignal_of_encode {raw : List UInt8} {sig : Signal} {value : Rat}
    (hraw : getRawValue raw sig = (encode sig value % 2 ^ sig.size).toNat)
    (hfactor : sig.factor ≠ 0) {n : Int} (hvalue : (value - sig.offset) / sig.factor = n)
    (hn : 0 ≤ n) (hlt : n < 2 ^ sig.size) : parseSignal raw sig = value := by
  rw [encode_eq hvalue hn, Int.emod_eq_of_lt hn hlt] at hraw
  have hcast : ((n.toNat : Nat) : Rat) = (n : Rat) := by
    have hnat : ((n.toNat : Nat) : Int) = n := Int.toNat_of_nonneg hn
    exact_mod_cast congrArg (Int.cast : Int → Rat) hnat
  rw [parseSignal, hraw, hcast, ← hvalue, div_mul_cancel₀ _ hfactor, sub_add_cancel]

theorem encode_plain {sig : Signal} (h : sig.Plain) (n : Nat) : encode sig n = n := by
  refine encode_eq ?_ (Int.natCast_nonneg n)
  rw [h.1, h.2, sub_zero, div_one]
  exact (Int.cast_natCast n).symm

theorem parseSignal_plain {raw : List UInt8} {sig : Signal} (h : sig.Plain) {n : Nat}
    (hlt : n < 2 ^ sig.size)
    (hraw : getRawValue raw sig = (encode sig n % 2 ^ sig.size).toNat) :
    parseSignal raw sig = n := by
  have hmod : ((n : Int) % 2 ^ sig.size) = n := by
    refine Int.emod_eq_of_lt (Int.natCast_nonneg n) ?_
    exact_mod_cast hlt
  rw [h.parse, hraw, encode_plain h, hmod, Int.toNat_natCast]

theorem ofBool_eq (flag : Bool) : ofBool flag = (flag.toNat : Nat) := by
  cases flag <;> rfl

theorem parseSignal_flag {raw : List UInt8} {sig : Signal} (h : sig.Plain) {flag : Bool}
    (hsize : 0 < sig.size)
    (hraw : getRawValue raw sig = (encode sig (ofBool flag) % 2 ^ sig.size).toNat) :
    parseSignal raw sig = ofBool flag := by
  have hlt : flag.toNat < 2 ^ sig.size := by
    have htwo : 2 ^ 1 ≤ 2 ^ sig.size := Nat.pow_le_pow_right (by decide) hsize
    have hflag := Bool.toNat_lt flag
    omega
  rw [ofBool_eq] at hraw ⊢
  exact parseSignal_plain h hlt hraw

end Longitudinal
end MazdaPort
