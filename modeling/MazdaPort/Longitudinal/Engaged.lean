import MazdaPort.Longitudinal.Patch
import Mathlib.Tactic.Linarith

/-!
# MazdaPort.Longitudinal.Engaged

The CRZ_INFO frame of `build_crz_info` while `long_active` is true: eight patches of the template
and the checksum. `engagedFrame_round_trip`: the DBC reads from it what was written and the
template elsewhere, its bytes sum up as the radar's do, and `mazda_tx_hook` reads the same
ACCEL_CMD and passes it under the authority for longitudinal control.
-/

namespace MazdaPort
namespace Longitudinal

open Bits Can Safety

/-! ## ACCEL_CMD in its range -/

theorem accelToAccelCmd_bounds (accel vEgo : Rat) :
    -2000 ≤ accelToAccelCmd accel vEgo ∧ accelToAccelCmd accel vEgo ≤ 2000 := by
  have hclip : ∀ x : Rat, ((-2000 : Int) : Rat) ≤ clip x (-2000) 2000 ∧
      clip x (-2000) 2000 ≤ ((2000 : Int) : Rat) := by
    intro x
    unfold clip
    constructor
    · exact le_min (le_max_right ..) (by norm_num)
    · exact min_le_right ..
  rw [accelToAccelCmd, pyRound_eq]
  exact ⟨Rounding.le_nearestEven (hclip _).1, Rounding.nearestEven_le (hclip _).2⟩

/-! ## The patches -/

def engagedPatches (accel : Rat) (counter : Int) (stoppingActive : Bool) (vEgo : Rat)
    (setAllowed resumeUnlatching : Bool) : List (Signal × Rat) :=
  [(accelCmd, accelToAccelCmd accel vEgo), (accActive, 1), (accSetAllowed, ofBool setAllowed),
    (crzEnded, 0), (stoppingMaybe, ofBool stoppingActive),
    (stoppingMaybe2, ofBool stoppingActive), (resumeUnlatchingMaybe, ofBool resumeUnlatching),
    (ctr1, (counter % 16 : Int))]

theorem buildCrzInfo_engaged (observed : Observed) (accel : Rat) (counter : Int)
    (holdRequest : Bool) (vEgo : Rat) (holdLatched setAllowed resumeUnlatching : Bool) :
    buildCrzInfo observed accel counter true holdRequest vEgo holdLatched setAllowed
        resumeUnlatching =
      updateCrzInfoChecksum
        (patchAll crzInfoTemplate (engagedPatches accel counter (holdRequest && !holdLatched) vEgo
          setAllowed resumeUnlatching))
        (if holdRequest && !holdLatched then 0x04 else 0) := by
  have hone : ofBool true = 1 := rfl
  unfold buildCrzInfo patchAll engagedPatches
  simp only [Bool.not_true, Bool.false_eq_true, if_false, hone, List.foldl_cons, List.foldl_nil]

section Patches

variable (accel : Rat) (counter : Int) (stoppingActive : Bool) (vEgo : Rat)
  (setAllowed resumeUnlatching : Bool)

theorem engagedPatches_signals :
    (engagedPatches accel counter stoppingActive vEgo setAllowed resumeUnlatching).map Prod.fst =
      [accelCmd, accActive, accSetAllowed, crzEnded, stoppingMaybe, stoppingMaybe2,
        resumeUnlatchingMaybe, ctr1] := rfl

theorem engagedPatches_fit : ∀ p ∈ engagedPatches accel counter stoppingActive vEgo setAllowed
    resumeUnlatching, p.1.Fits crzInfoTemplate.length := by
  intro p hp
  have hsig := List.mem_map_of_mem (f := Prod.fst) hp
  rw [engagedPatches_signals] at hsig
  have hall : ∀ sig ∈ [accelCmd, accActive, accSetAllowed, crzEnded, stoppingMaybe, stoppingMaybe2,
      resumeUnlatchingMaybe, ctr1], sig.Fits crzInfoTemplate.length := by decide
  exact hall _ hsig

/-- The eight signals keep apart. -/
theorem engagedPatches_apart : (engagedPatches accel counter stoppingActive vEgo setAllowed
    resumeUnlatching).Pairwise fun p q => q.1.Apart p.1 := by
  have hall : [accelCmd, accActive, accSetAllowed, crzEnded, stoppingMaybe, stoppingMaybe2,
      resumeUnlatchingMaybe, ctr1].Pairwise fun sig other => other.Apart sig := by decide
  rw [← engagedPatches_signals accel counter stoppingActive vEgo setAllowed resumeUnlatching,
    List.pairwise_map] at hall
  exact hall

end Patches

/-! ## ACCEL_CMD in the transmit hook -/

theorem packet_byte (raw : List UInt8) (i : Nat) (hi : i < 8) :
    (crzInfoPacket raw).data[i] = raw.getD i 0 := by
  simp [crzInfoPacket, CANPacket.eightBytes]

/-- The shifts of `mazda_tx_hook` read the thirteen bits that the DBC names. -/
theorem crzInfoAccel_eq {raw : List UInt8} (hlen : 8 ≤ raw.length) :
    crzInfoAccel (crzInfoPacket raw) = (getRawValue raw accelCmd : Int) - 4096 := by
  have hfit : accelCmd.Fits raw.length := by
    have h8 : accelCmd.Fits 8 := by decide
    exact h8.mono hlen
  have hnat : ∀ (b : UInt8) (r : Nat), b.toNat.testBit r = byteBit b r := fun _ _ => rfl
  unfold crzInfoAccel
  congr 2
  refine Nat.eq_of_testBit_eq fun k => ?_
  rw [getRawValue_testBit hfit]
  simp only [packet_byte, Nat.testBit_or, Nat.testBit_shiftLeft, Nat.testBit_shiftRight, hnat]
  have hmask : ∀ r, byteBit 3 r = decide (r < 2) := by
    intro r
    change (BitVec.ofNat 8 (2 ^ 2 - 1)).getLsbD r = _
    rw [BitVec.getLsbD_ofNat, Nat.testBit_two_pow_sub_one, Bool.and_eq_right_iff_imp]
    simp only [decide_eq_true_eq]
    omega
  have hhigh : ∀ (b : UInt8) (r : Nat), 8 ≤ r → byteBit b r = false := by
    intro b r hr
    exact BitVec.getLsbD_of_ge _ _ hr
  have hplace : accelCmd.size = 13 ∧ accelCmd.lsb = 37 ∧ accelCmd.isLittleEndian = false := by
    decide
  simp only [byteBit_and, hmask, bit, Signal.bitAt, Signal.byteAt, hplace, Bool.false_eq_true, if_false]
  by_cases h3 : k < 3
  · have hbyte : (8 * (37 / 8 - (37 % 8 + k) / 8) + (37 % 8 + k) % 8) / 8 = 4 ∧
        (8 * (37 / 8 - (37 % 8 + k) / 8) + (37 % 8 + k) % 8) % 8 = 5 + k := by omega
    rw [hbyte.1, hbyte.2]
    have h13 : k < 13 := by omega
    have h11 : ¬ 11 ≤ k := by omega
    simp [h13, h11, Nat.not_le.2 h3]
  · by_cases h11 : k < 11
    · have hbyte : (8 * (37 / 8 - (37 % 8 + k) / 8) + (37 % 8 + k) % 8) / 8 = 3 ∧
          (8 * (37 / 8 - (37 % 8 + k) / 8) + (37 % 8 + k) % 8) % 8 = k - 3 := by omega
      rw [hbyte.1, hbyte.2]
      have h13 : k < 13 := by omega
      simp [h13, Nat.not_le.2 h11, Nat.not_lt.1 h3, hhigh _ (5 + k) (by omega)]
    · by_cases h13 : k < 13
      · have hbyte : (8 * (37 / 8 - (37 % 8 + k) / 8) + (37 % 8 + k) % 8) / 8 = 2 ∧
            (8 * (37 / 8 - (37 % 8 + k) / 8) + (37 % 8 + k) % 8) % 8 = k - 11 := by omega
        rw [hbyte.1, hbyte.2]
        have hlow : k - 11 < 2 := by omega
        simp [h13, Nat.not_lt.1 h11, hlow, hhigh _ (5 + k) (by omega),
          hhigh _ (k - 3) (by omega)]
      · have hlow : ¬ k - 11 < 2 := by omega
        simp [h13, hlow, hhigh _ (5 + k) (by omega), hhigh _ (k - 3) (by omega)]

/-- An engaged command is inside the limits and is not the idle sentinel. -/
theorem crzInfo_engaged_refused {raw : List UInt8}
    (hlow : -2000 ≤ crzInfoAccel (crzInfoPacket raw))
    (hhigh : crzInfoAccel (crzInfoPacket raw) ≤ 2000) {v : Vars}
    (hlong : v.mazdaLongitudinal = true) :
    mazdaTxRefused (crzInfoPacket raw) v = false ↔
      v.controlsAllowed = true ∧ v.gasPressedPrev = false := by
  have haddr : (crzInfoPacket raw).addr.toNat = mazdaCrzInfo := rfl
  have hctrl : (mazdaCrzInfo == mazdaCrzCtrl) = false := by decide
  have huds : (mazdaCrzInfo == mazdaRadarUds) = false := by decide
  have hbtns : (mazdaCrzInfo == mazdaCrzBtns) = false := by decide
  have hidle : crzInfoAccel (crzInfoPacket raw) ≠ mazdaLongLimits.inactiveAccel := by
    have hsentinel : mazdaLongLimits.inactiveAccel = 4094 := rfl
    omega
  simp only [mazdaTxRefused, haddr, beq_self_eq_true, hctrl, huds, hbtns, hlong, Bool.and_true,
    Bool.true_and, Bool.and_false, Bool.false_and, Bool.or_false]
  rw [longitudinalAccelChecks_false]
  constructor
  · rintro (⟨hallowed, -, -⟩ | hsentinel)
    · simpa [getLongitudinalAllowed] using hallowed
    · exact absurd hsentinel hidle
  · rintro ⟨hcontrols, hgas⟩
    refine .inl ⟨?_, hhigh, hlow⟩
    rw [getLongitudinalAllowed, hcontrols, hgas]
    rfl

/-! ## The checksum -/

theorem updateCrzInfoChecksum_bit {raw : List UInt8} (hlen : 8 ≤ raw.length) (bias : Nat) {b : Nat}
    (hb : b / 8 ≠ 7) : bit (updateCrzInfoChecksum raw bias) b = bit raw b := by
  rw [updateCrzInfoChecksum, bit_set raw (by omega), if_neg hb]

theorem updateCrzInfoChecksum_length (raw : List UInt8) (bias : Nat) :
    (updateCrzInfoChecksum raw bias).length = raw.length := List.length_set ..

/-- The checksum makes the eight bytes sum up to 255, and to the bias more. -/
theorem updateCrzInfoChecksum_sum {raw : List UInt8} (hlen : raw.length = 8) (bias : Nat) :
    ((updateCrzInfoChecksum raw bias).map UInt8.toNat).sum % 256 = (255 + bias) % 256 := by
  match raw, hlen with
  | [b0, b1, b2, b3, b4, b5, b6, b7], _ =>
    have hmask : ∀ n : Nat, n &&& 0xFF = n % 256 := Nat.and_two_pow_sub_one_eq_mod (n := 8)
    have hrest : (List.range [b0, b1, b2, b3, b4, b5, b6, b7].length).filter (fun i => i != 7) =
        [0, 1, 2, 3, 4, 5, 6] := by rfl
    simp only [updateCrzInfoChecksum, computeInvertedSumChecksum, hrest, List.map_cons,
      List.map_nil, List.sum_cons, List.sum_nil, hmask, List.set_cons_succ, List.set_cons_zero,
      UInt8.toNat_ofNat']
    simp only [List.getD_cons_zero, List.getD_cons_succ]
    omega

/-! ## The frame -/

/-- What the DBC reads from an engaged CRZ_INFO frame. -/
structure EngagedFrame (raw : List UInt8) (accel : Rat) (counter : Int) (stoppingActive : Bool)
    (vEgo : Rat) (setAllowed resumeUnlatching : Bool) : Prop where
  length : raw.length = 8
  command : parseSignal raw accelCmd = accelToAccelCmd accel vEgo
  active : parseSignal raw accActive = 1
  allowed : parseSignal raw accSetAllowed = ofBool setAllowed
  ended : parseSignal raw crzEnded = 0
  stopping : parseSignal raw stoppingMaybe = ofBool stoppingActive
  stopping2 : parseSignal raw stoppingMaybe2 = ofBool stoppingActive
  unlatching : parseSignal raw resumeUnlatchingMaybe = ofBool resumeUnlatching
  count : parseSignal raw ctr1 = (counter % 16 : Int)
  others : ∀ b < 56, (∀ sig ∈ [accelCmd, accActive, accSetAllowed, crzEnded, stoppingMaybe,
    stoppingMaybe2, resumeUnlatchingMaybe, ctr1], sig.index b = none) →
      bit raw b = bit crzInfoTemplate b
  sum : (raw.map UInt8.toNat).sum % 256 = (255 + if stoppingActive then 4 else 0) % 256

section Frame

variable (accel : Rat) (counter : Int) (stoppingActive : Bool) (vEgo : Rat)
  (setAllowed resumeUnlatching : Bool) (bias : Nat)

/-- The checksum byte leaves what was patched as it is. -/
theorem getRawValue_engaged {sig : Signal} {value : Rat}
    (hmem : (sig, value) ∈ engagedPatches accel counter stoppingActive vEgo setAllowed
      resumeUnlatching)
    (hbyte : ∀ k < sig.size, sig.bitAt k / 8 ≠ 7) :
    getRawValue (updateCrzInfoChecksum (patchAll crzInfoTemplate
      (engagedPatches accel counter stoppingActive vEgo setAllowed resumeUnlatching)) bias) sig =
      (encode sig value % 2 ^ sig.size).toNat := by
  have hfit := engagedPatches_fit accel counter stoppingActive vEgo setAllowed resumeUnlatching
  have hlen : (patchAll crzInfoTemplate (engagedPatches accel counter stoppingActive vEgo
      setAllowed resumeUnlatching)).length = 8 := patchAll_length _ _
  have hsig : sig.Fits 8 := hfit _ hmem
  rw [← getRawValue_patchAll hfit (engagedPatches_apart accel counter stoppingActive vEgo
    setAllowed resumeUnlatching) hmem]
  refine getRawValue_congr ?_ ?_ fun k hk => updateCrzInfoChecksum_bit hlen.ge bias (hbyte k hk)
  · rwa [updateCrzInfoChecksum_length, hlen]
  · rwa [hlen]

theorem engagedFrame_patches :
    EngagedFrame (updateCrzInfoChecksum (patchAll crzInfoTemplate (engagedPatches accel counter
      stoppingActive vEgo setAllowed resumeUnlatching)) (if stoppingActive then 0x04 else 0))
      accel counter stoppingActive vEgo setAllowed resumeUnlatching := by
  have hlen : (patchAll crzInfoTemplate (engagedPatches accel counter stoppingActive vEgo
      setAllowed resumeUnlatching)).length = 8 := patchAll_length _ _
  obtain ⟨hlow, hhigh⟩ := accelToAccelCmd_bounds accel vEgo
  have hflag : ∀ {sig : Signal} {flag : Bool},
      (sig, ofBool flag) ∈ engagedPatches accel counter stoppingActive vEgo setAllowed
        resumeUnlatching → (∀ k < sig.size, sig.bitAt k / 8 ≠ 7) → sig.Plain →
      0 < sig.size → parseSignal (updateCrzInfoChecksum (patchAll crzInfoTemplate (engagedPatches
        accel counter stoppingActive vEgo setAllowed resumeUnlatching))
        (if stoppingActive then 0x04 else 0)) sig = ofBool flag := by
    intro sig flag hmem hbyte hplain hsize
    exact parseSignal_flag hplain hsize (getRawValue_engaged accel counter stoppingActive vEgo
      setAllowed resumeUnlatching _ hmem hbyte)
  constructor
  · rw [updateCrzInfoChecksum_length, hlen]
  · refine parseSignal_of_encode (getRawValue_engaged accel counter stoppingActive vEgo setAllowed
      resumeUnlatching _ (by simp [engagedPatches]) (by decide)) (by decide)
      (n := accelToAccelCmd accel vEgo + 4096) ?_ ?_ ?_
    · have hfactor : accelCmd.factor = 1 := rfl
      have hoffset : accelCmd.offset = -4096 := rfl
      rw [hfactor, hoffset, div_one]
      push_cast
      ring
    · omega
    · have hsize : accelCmd.size = 13 := rfl
      rw [hsize]
      omega
  · exact @hflag _ true (by simp [engagedPatches, ofBool]) (by decide) (by decide) (by decide)
  · exact hflag (by simp [engagedPatches]) (by decide) (by decide) (by decide)
  · exact @hflag _ false (by simp [engagedPatches, ofBool]) (by decide) (by decide) (by decide)
  · exact hflag (by simp [engagedPatches]) (by decide) (by decide) (by decide)
  · exact hflag (by simp [engagedPatches]) (by decide) (by decide) (by decide)
  · exact hflag (by simp [engagedPatches]) (by decide) (by decide) (by decide)
  · refine parseSignal_of_encode (getRawValue_engaged accel counter stoppingActive vEgo setAllowed
      resumeUnlatching _ (by simp [engagedPatches]) (by decide)) (by decide)
      (n := counter % 16) ?_ ?_ ?_
    · have hfactor : ctr1.factor = 1 := rfl
      have hoffset : ctr1.offset = 0 := rfl
      rw [hfactor, hoffset, sub_zero, div_one]
    · omega
    · have hsize : ctr1.size = 4 := rfl
      rw [hsize]
      omega
  · intro b hb hnone
    have hbyte : b / 8 ≠ 7 := by omega
    rw [updateCrzInfoChecksum_bit hlen.ge _ hbyte]
    refine bit_patchAll_other (engagedPatches_fit accel counter stoppingActive vEgo setAllowed
      resumeUnlatching) ?_ ?_
    · have htemplate : crzInfoTemplate.length = 8 := rfl
      omega
    · intro p hp
      have hsig := List.mem_map_of_mem (f := Prod.fst) hp
      rw [engagedPatches_signals] at hsig
      exact hnone _ hsig
  · rw [updateCrzInfoChecksum_sum hlen]

end Frame

/-- The engaged frame carries what it was asked to carry and the template elsewhere. The transmit
hook reads the same command from it, and passes it under the authority for longitudinal control
and not otherwise. -/
theorem engagedFrame_round_trip (observed : Observed) (accel : Rat) (counter : Int)
    (holdRequest : Bool) (vEgo : Rat) (holdLatched setAllowed resumeUnlatching : Bool) :
    let raw := buildCrzInfo observed accel counter true holdRequest vEgo holdLatched setAllowed
      resumeUnlatching
    EngagedFrame raw accel counter (holdRequest && !holdLatched) vEgo setAllowed resumeUnlatching ∧
      (-2000 ≤ accelToAccelCmd accel vEgo ∧ accelToAccelCmd accel vEgo ≤ 2000) ∧
      crzInfoAccel (crzInfoPacket raw) = accelToAccelCmd accel vEgo ∧
      ∀ ts v, v.mazdaLongitudinal = true →
        ((mazdaTxHook ts (crzInfoPacket raw) v).1 = true ↔
          v.controlsAllowed = true ∧ v.gasPressedPrev = false) := by
  intro raw
  have hframe : EngagedFrame raw accel counter (holdRequest && !holdLatched) vEgo setAllowed
      resumeUnlatching := by
    simp only [raw, buildCrzInfo_engaged]
    exact engagedFrame_patches ..
  have hbounds := accelToAccelCmd_bounds accel vEgo
  have haccel : crzInfoAccel (crzInfoPacket raw) = accelToAccelCmd accel vEgo := by
    have hcmd := hframe.command
    have hfactor : accelCmd.factor = 1 := rfl
    have hoffset : accelCmd.offset = -4096 := rfl
    rw [parseSignal, hfactor, hoffset, mul_one] at hcmd
    rw [crzInfoAccel_eq (by rw [hframe.length])]
    have hcast : ((getRawValue raw accelCmd : Int) : Rat) + (-4096 : Int) =
        (accelToAccelCmd accel vEgo : Rat) := by exact_mod_cast hcmd
    have hint : (getRawValue raw accelCmd : Int) + (-4096) = accelToAccelCmd accel vEgo := by
      exact_mod_cast hcast
    omega
  refine ⟨hframe, hbounds, haccel, ?_⟩
  intro ts v hlong
  have hmain : (crzInfoPacket raw).bus.toNat = mazdaMain := rfl
  have hlkas : (crzInfoPacket raw).addr.toNat ≠ mazdaLkas := by
    have haddr : (crzInfoPacket raw).addr.toNat = mazdaCrzInfo := rfl
    rw [haddr]
    decide
  rw [mazdaTxHook_main hmain, crzInfo_engaged_refused (by omega) (by omega) hlong]
  constructor
  · rintro ⟨-, hauthority⟩
    exact hauthority
  · intro hauthority
    exact ⟨fun h => absurd h hlkas, hauthority⟩

/-- An active stop, with authority. -/
theorem engagedFrame_stop :
    (mazdaTxHook 0 (crzInfoPacket (buildCrzInfo (fun _ => none) (-1) 5 true true 0 false true
      false)) { ({} : SafetyState).toVars with
        mazdaLongitudinal := true, controlsAllowed := true }).1 = true :=
  ((engagedFrame_round_trip (fun _ => none) (-1) 5 true 0 false true false).2.2.2 0 _ rfl).2
    ⟨rfl, rfl⟩

end Longitudinal
end MazdaPort
