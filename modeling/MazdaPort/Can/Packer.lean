import MazdaPort.Can.Parser
import Mathlib.Tactic.Linarith

/-!
# MazdaPort.Can.Packer

`CANPacker.pack` of `opendbc/can/packer.py` for a message without a counter or a checksum of its own,
as all of `mazda_2017.dbc` are.

`getRawValue_pack`: where the signals of a message lie apart, each one that is given a value reads
back as it, and each other one as zero. `getRawValue_pack_free`: what lies apart from all of them
reads as zero.
-/

namespace MazdaPort
namespace Can

open Bits

/-- `ival` of `pack`. -/
def packValue (sig : Signal) (value : Rat) : Int :=
  let ival := ((value - sig.offset) / sig.factor + 1 / 2).floor
  if ival < 0 then 2 ^ sig.size + ival else ival

/-- One pass of the loop. A name that the message does not have is passed by. -/
def packStep (sigs : List (String × Signal)) (dat : List UInt8) (value : String × Rat) :
    List UInt8 :=
  match sigs.lookup value.1 with
  | some sig => setValue dat sig (packValue sig value.2)
  | none => dat

def packList (size : Nat) (sigs : List (String × Signal)) (values : List (String × Rat)) :
    List UInt8 :=
  values.foldl (packStep sigs) (List.replicate size 0)

theorem packStep_length (sigs : List (String × Signal)) (dat : List UInt8) (value : String × Rat) :
    (packStep sigs dat value).length = dat.length := by
  unfold packStep
  split
  · exact setValue_length _ _ _
  · rfl

theorem foldl_packStep_length (sigs : List (String × Signal)) (values : List (String × Rat))
    (dat : List UInt8) : (values.foldl (packStep sigs) dat).length = dat.length := by
  induction values generalizing dat with
  | nil => rfl
  | cons value values ih => rw [List.foldl_cons, ih, packStep_length]

theorem packList_length (size : Nat) (sigs : List (String × Signal))
    (values : List (String × Rat)) : (packList size sigs values).length = size := by
  rw [packList, foldl_packStep_length, List.length_replicate]

def pack (size : Nat) (sigs : List (String × Signal)) (values : List (String × Rat)) :
    Vector UInt8 size :=
  ⟨(packList size sigs values).toArray, by rw [List.size_toArray, packList_length]⟩

theorem pack_toList (size : Nat) (sigs : List (String × Signal)) (values : List (String × Rat)) :
    (pack size sigs values).toList = packList size sigs values := rfl

/-! ## What is read back -/

/-- The signals lie inside the message, each apart from the others. -/
structure Layout (size : Nat) (sigs : List (String × Signal)) : Prop where
  fits : ∀ p ∈ sigs, p.2.Fits size
  apart : ∀ p ∈ sigs, ∀ q ∈ sigs, p.1 ≠ q.1 → p.2.Apart q.2

variable {size : Nat} {sigs : List (String × Signal)}

theorem mem_of_lookup {name : String} {sig : Signal} (h : sigs.lookup name = some sig) :
    (name, sig) ∈ sigs := by
  obtain ⟨pre, post, rfl, -⟩ := List.lookup_eq_some_iff.1 h
  exact List.mem_append_right _ List.mem_cons_self

/-- A signal inside one byte. -/
theorem getRawValue_inByte {sig : Signal} {dat : List UInt8} (hfit : sig.Fits dat.length)
    (hin : sig.lsb % 8 + sig.size ≤ 8) :
    getRawValue dat sig = (dat.getD (sig.lsb / 8) 0).toNat / 2 ^ (sig.lsb % 8) % 2 ^ sig.size := by
  refine Nat.eq_of_testBit_eq fun k => ?_
  rw [getRawValue_testBit hfit, Nat.testBit_mod_two_pow]
  by_cases hk : k < sig.size
  · have hplace : (sig.lsb % 8 + k) / 8 = 0 := by omega
    have hbyte : sig.byteAt 0 = sig.lsb / 8 := by
      unfold Signal.byteAt
      split <;> omega
    have hbit : sig.bitAt k = 8 * (sig.lsb / 8) + (sig.lsb % 8 + k) := by
      unfold Signal.bitAt
      rw [hplace, hbyte]
      omega
    have hdiv : (8 * (sig.lsb / 8) + (sig.lsb % 8 + k)) / 8 = sig.lsb / 8 := by omega
    have hmod : (8 * (sig.lsb / 8) + (sig.lsb % 8 + k)) % 8 = k + sig.lsb % 8 := by omega
    rw [hbit, Nat.testBit_div_two_pow]
    unfold bit
    rw [hdiv, hmod]
    simp only [hk, decide_true, Bool.true_and]
    rfl
  · simp [hk]

/-- Values whose signals lie apart from `sig` leave it as it is. -/
theorem getRawValue_foldl_apart {sig : Signal} (hsig : sig.Fits size)
    {values : List (String × Rat)}
    (hvalues : ∀ value ∈ values, ∀ other, sigs.lookup value.1 = some other →
      other.Fits size ∧ other.Apart sig) {dat : List UInt8} (hdat : dat.length = size) :
    getRawValue (values.foldl (packStep sigs) dat) sig = getRawValue dat sig := by
  induction values generalizing dat with
  | nil => rfl
  | cons value values ih =>
    rw [List.foldl_cons, ih (fun v hv => hvalues v (List.mem_cons_of_mem _ hv))
      ((packStep_length _ _ _).trans hdat)]
    unfold packStep
    split
    · next other hother =>
      obtain ⟨hfit, hapart⟩ := hvalues value List.mem_cons_self other hother
      subst hdat
      exact getRawValue_setValue_other hfit hsig hapart _
    · rfl

theorem getRawValue_zeros {sig : Signal} (hfit : sig.Fits size) :
    getRawValue (List.replicate size 0) sig = 0 := by
  have hlen : (List.replicate size (0 : UInt8)).length = size := List.length_replicate
  refine Nat.eq_of_testBit_eq fun k => ?_
  rw [getRawValue_testBit (by rwa [hlen]), Nat.zero_testBit]
  by_cases hk : k < sig.size
  · have hbyte := hfit.bitAt_lt hk
    simp [bit, byteBit, hk, hbyte]
  · simp [hk]

/-- By splitting the values where the name is: the ones behind leave what was written. -/
theorem getRawValue_pack (hlayout : Layout size sigs) {name : String} {sig : Signal}
    (hsig : sigs.lookup name = some sig) {values : List (String × Rat)}
    (hnodup : (values.map Prod.fst).Nodup) {v : Rat} (hv : (name, v) ∈ values) :
    getRawValue (packList size sigs values) sig =
      (((v - sig.offset) / sig.factor + 1 / 2).floor % 2 ^ sig.size).toNat := by
  obtain ⟨pre, post, rfl⟩ := List.append_of_mem hv
  have hpost : ∀ value ∈ post, value.1 ≠ name := by
    rw [List.map_append, List.map_cons] at hnodup
    have hrest := (List.nodup_append.1 hnodup).2.1
    intro value hvalue heq
    have hname : value.1 ∈ post.map Prod.fst := List.mem_map_of_mem hvalue
    rw [heq] at hname
    exact (List.nodup_cons.1 hrest).1 hname
  have hlen : (pre.foldl (packStep sigs) (List.replicate size 0)).length = size := by
    rw [foldl_packStep_length, List.length_replicate]
  have hmod : packValue sig v % 2 ^ sig.size =
      ((v - sig.offset) / sig.factor + 1 / 2).floor % 2 ^ sig.size := by
    unfold packValue
    dsimp only
    split
    · exact Int.add_emod_left _ _
    · rfl
  have hother : ∀ value ∈ post, ∀ other, sigs.lookup value.1 = some other →
      other.Fits size ∧ other.Apart sig := by
    intro value hvalue other hlookup
    have hmem := mem_of_lookup hlookup
    exact ⟨hlayout.fits _ hmem, hlayout.apart _ hmem _ (mem_of_lookup hsig) (hpost value hvalue)⟩
  rw [packList, List.foldl_append, List.foldl_cons,
    getRawValue_foldl_apart (hlayout.fits _ (mem_of_lookup hsig)) hother
      (by rw [packStep_length, hlen])]
  have hfit : sig.Fits (pre.foldl (packStep sigs) (List.replicate size 0)).length := by
    rw [hlen]
    exact hlayout.fits _ (mem_of_lookup hsig)
  have hstep : ∀ dat, packStep sigs dat (name, v) = setValue dat sig (packValue sig v) := by
    intro dat
    unfold packStep
    rw [hsig]
  rw [hstep, getRawValue_setValue hfit, hmod]

/-- Whole numbers for a signal that counts in steps of one. -/
theorem getRawValue_pack_int (hlayout : Layout size sigs) {name : String} {sig : Signal}
    (hsig : sigs.lookup name = some sig) {o : Int} (hfactor : sig.factor = 1)
    (hoffset : sig.offset = o) {values : List (String × Rat)}
    (hnodup : (values.map Prod.fst).Nodup) {v : Int} (hv : (name, (v : Rat)) ∈ values) :
    getRawValue (packList size sigs values) sig = ((v - o) % 2 ^ sig.size).toNat := by
  have hfloor : (((v : Rat) - sig.offset) / sig.factor + 1 / 2).floor = v - o := by
    rw [hfactor, hoffset, div_one]
    refine le_antisymm (Int.lt_add_one_iff.1 (Rat.floor_lt_iff.2 ?_)) (Rat.le_floor_iff.2 ?_)
    · push_cast
      linarith
    · push_cast
      linarith
  rw [getRawValue_pack hlayout hsig hnodup hv, hfloor]

/-- Where no signal is, the message stays clear. -/
theorem getRawValue_pack_free (hlayout : Layout size sigs) (values : List (String × Rat))
    {sig : Signal} (hsig : sig.Fits size) (hfree : ∀ p ∈ sigs, p.2.Apart sig) :
    getRawValue (packList size sigs values) sig = 0 := by
  have hother : ∀ value ∈ values, ∀ other, sigs.lookup value.1 = some other →
      other.Fits size ∧ other.Apart sig := by
    intro value _ other hlookup
    have hmem := mem_of_lookup hlookup
    exact ⟨hlayout.fits _ hmem, hfree _ hmem⟩
  rw [packList, getRawValue_foldl_apart hsig hother List.length_replicate, getRawValue_zeros hsig]

end Can
end MazdaPort
