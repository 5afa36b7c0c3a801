import MazdaPort.Can.Packer
import MazdaPort.Steering.Stream
import Mathlib.Algebra.BigOperators.Fin
import Mathlib.Tactic.FinCases
import Mathlib.Tactic.IntervalCases

/-!
# MazdaPort.Steering.LkasFrame

The bytes of 0x243: `create_steering_control` of `mazdacan.py`, which builds the frame that
`tx_thread` sends, and `_validate_cam_checksum` of `dashcam_web.py`, which takes the camera's frames
apart and builds them again.

* `lkasFrame_sent`: the firmware decides on every frame of the stream as on the torque that the host
  put into it.
* `validator_run`: the validator counts as good exactly the frames that the packer can build.
* `single_bit_rejected`: it counts no frame of the packer with one wrong bit as good.
-/

namespace MazdaPort
namespace Steering

open Bits Can Safety

/-! ## The packer -/

/-- CAM_LKAS of `mazda_2017.dbc`. -/
def camLkas : List (String × Signal) :=
  [("CTR", .ofDbc 7 4 false 1 0),
    ("ERR_BIT_1", .ofDbc 16 1 false 1 0),
    ("CHKSUM", .ofDbc 63 8 false 1 0),
    ("LINE_NOT_VISIBLE", .ofDbc 19 1 false 1 0),
    ("BIT_1", .ofDbc 29 1 false 1 0),
    ("LDW", .ofDbc 23 1 false 1 0),
    ("LKAS_REQUEST", .ofDbc 3 12 false 1 (-2048)),
    ("ERR_BIT_2", .ofDbc 30 1 false 1 0),
    ("ANGLE_ENABLED", .ofDbc 52 1 false 1 0),
    ("STEERING_ANGLE", .ofDbc 33 12 false 1 (-2048))]

/-- The values of the camera's frame that `create_steering_control` copies. -/
structure CamBits where
  bit1 : Bool
  errBit1 : Bool
  errBit2 : Bool
  lineNotVisible : Bool
  ldw : Bool

def clampAngle (steeringAngle : Int) : Int := max (-2048) (min 2047 steeringAngle)

/-- The reverse-engineered sum. `tmp` is the torque with its offset, `angle` the angle with its. -/
def lkasChecksum (ctr tmp er1 lnv ldw er2 b1 angle b2 : Int) : Int :=
  let lo := tmp % 2 ^ 8
  let hi := tmp / 2 ^ 8
  let ahi := angle / 2 ^ 10
  let amd := angle % 2 ^ 10 / 2 ^ 2
  let amd := amd / 2 ^ 4 + amd % 2 ^ 4 * 2 ^ 4
  let alo := angle % 2 ^ 2 * 2 ^ 2
  let csum := 249 - ctr - hi - lo - lnv * 2 ^ 3 - er1 - ldw * 2 ^ 7 - er2 * 2 ^ 4 - b1 * 2 ^ 5
  let csum := csum - ahi - amd - alo - b2
  let csum := if ahi = 1 then csum + 15 else csum
  let csum := if csum < 0 then if csum < -256 then csum + 512 else csum + 256 else csum
  csum % 256

def lkasValues (applyTorque ctr er1 lnv ldw b1 er2 steeringAngle b2 csum : Int) :
    List (String × Rat) :=
  [("LKAS_REQUEST", applyTorque),
    ("CTR", ctr),
    ("ERR_BIT_1", er1),
    ("LINE_NOT_VISIBLE", lnv),
    ("LDW", ldw),
    ("BIT_1", b1),
    ("ERR_BIT_2", er2),
    ("STEERING_ANGLE", steeringAngle),
    ("ANGLE_ENABLED", b2),
    ("CHKSUM", csum)]

/-- For a car of the first generation, as this one is. -/
def createSteeringControl (copyCamLines : Bool) (frame : Nat) (applyTorque : Int) (lkas : CamBits)
    (steeringAngle : Int) : Vector UInt8 8 :=
  let b1 : Int := lkas.bit1.toNat
  let er1 : Int := lkas.errBit1.toNat
  let lnv : Int := if copyCamLines then lkas.lineNotVisible.toNat else 0
  let ldw : Int := if copyCamLines then lkas.ldw.toNat else 0
  let er2 : Int := lkas.errBit2.toNat
  let steeringAngle := clampAngle steeringAngle
  let b2 : Int := 0
  let ctr : Int := (frame % 16 : Nat)
  let csum := lkasChecksum ctr (applyTorque + 2048) er1 lnv ldw er2 b1 (steeringAngle + 2048) b2
  pack 8 camLkas (lkasValues applyTorque ctr er1 lnv ldw b1 er2 steeringAngle b2 csum)

/-! ## The validator -/

/-- What the validator keeps of a frame that it does not build again. -/
structure BadFrame where
  cam : Vector UInt8 8
  ours : Vector UInt8 8
  ang : Int
  ahi : Int
  torque : Int
  ctr : Nat
  csumCam : UInt8

structure CamState where
  ckOk : Nat := 0
  ckBad : Nat := 0
  ckSkip : Nat := 0
  ckLnv : Nat := 0
  ckLdw : Nat := 0
  ckAng : Nat := 0
  ckAngleSeen : Nat := 0
  trqPeak : Nat := 0
  ckBadFrames : List BadFrame := []

/-- `d[i]` of a frame. -/
def byteAt (d : Vector UInt8 8) (i : Nat) : UInt8 := if h : i < 8 then d[i] else 0

def camLnv (d : Vector UInt8 8) : Nat := ((byteAt d 2).toNat >>> 3) &&& 1

def camLdw (d : Vector UInt8 8) : Nat := ((byteAt d 2).toNat >>> 7) &&& 1

def camAngleEnabled (d : Vector UInt8 8) : Nat := ((byteAt d 6).toNat >>> 4) &&& 1

def camAngle (d : Vector UInt8 8) : Int :=
  ((((byteAt d 4).toNat &&& 0x03) <<< 10) ||| ((byteAt d 5).toNat <<< 2) |||
    (((byteAt d 6).toNat >>> 6) &&& 0x03) : Nat) - 2048

def camTorque (d : Vector UInt8 8) : Int :=
  ((((byteAt d 0).toNat &&& 0x0F) <<< 8) ||| (byteAt d 1).toNat : Nat) - 2048

def camBits (d : Vector UInt8 8) : CamBits :=
  { bit1 := ((byteAt d 3).toNat >>> 5) &&& 1 != 0
    errBit1 := (byteAt d 2).toNat &&& 1 != 0
    errBit2 := ((byteAt d 3).toNat >>> 6) &&& 1 != 0
    lineNotVisible := camLnv d != 0
    ldw := camLdw d != 0 }

/-- The frame built again from what is read out of it. -/
def rebuild (copyCamLines : Bool) (d : Vector UInt8 8) : Vector UInt8 8 :=
  createSteeringControl copyCamLines ((byteAt d 0).toNat >>> 4) (camTorque d) (camBits d)
    (camAngle d)

def skipped (copyCamLines : Bool) (d : Vector UInt8 8) : Bool :=
  camAngleEnabled d != 0 || (camLnv d != 0 || camLdw d != 0) && !copyCamLines

/-- Which bit makes the validator skip a frame. -/
def countFlags (s : CamState) (d : Vector UInt8 8) : CamState :=
  let s := if camLnv d != 0 then { s with ckLnv := s.ckLnv + 1 } else s
  let s := if camLdw d != 0 then { s with ckLdw := s.ckLdw + 1 } else s
  if camAngleEnabled d != 0 then { s with ckAng := s.ckAng + 1 } else s

def keepBadFrame (s : CamState) (d ref : Vector UInt8 8) : CamState :=
  if s.ckBadFrames.length < 40 then
    { s with
      ckBadFrames := s.ckBadFrames ++
        [{ cam := d
           ours := ref
           ang := camAngle d
           ahi := (camAngle d + 2048) / 2 ^ 10
           torque := camTorque d
           ctr := (byteAt d 0).toNat >>> 4
           csumCam := byteAt d 7 }] }
  else s

def compareFrame (s : CamState) (d ref : Vector UInt8 8) : CamState :=
  let ckOk := ref == d
  let s :=
    if ckOk then { s with ckOk := s.ckOk + 1 }
    else keepBadFrame { s with ckBad := s.ckBad + 1 } d ref
  let s := if camAngle d != 0 then { s with ckAngleSeen := s.ckAngleSeen + 1 } else s
  if ckOk then { s with trqPeak := max s.trqPeak (camTorque d).natAbs } else s

def validateCamChecksum (copyCamLines : Bool) (s : CamState) (d : Vector UInt8 8) : CamState :=
  let s := countFlags s d
  if skipped copyCamLines d then { s with ckSkip := s.ckSkip + 1 }
  else compareFrame s d (rebuild copyCamLines d)

/-- The validator over the camera's frames from the start. -/
def validated (copyCamLines : Bool) (ds : List (Vector UInt8 8)) : CamState :=
  ds.foldl (validateCamChecksum copyCamLines) {}

theorem validated_snoc (copyCamLines : Bool) (ds : List (Vector UInt8 8)) (d : Vector UInt8 8) :
    validated copyCamLines (ds ++ [d]) =
      validateCamChecksum copyCamLines (validated copyCamLines ds) d := by
  unfold validated
  rw [List.foldl_append, List.foldl_cons, List.foldl_nil]

/-! ## What the signals of a frame are in its bytes -/

/-- CAM_LKAS with the least significant bit of each signal worked out. -/
def camLkasLsb : List (String × Signal) :=
  [("CTR", ⟨4, 4, 1, 0, false⟩), ("ERR_BIT_1", ⟨16, 1, 1, 0, false⟩),
    ("CHKSUM", ⟨56, 8, 1, 0, false⟩), ("LINE_NOT_VISIBLE", ⟨19, 1, 1, 0, false⟩),
    ("BIT_1", ⟨29, 1, 1, 0, false⟩), ("LDW", ⟨23, 1, 1, 0, false⟩),
    ("LKAS_REQUEST", ⟨8, 12, 1, -2048, false⟩), ("ERR_BIT_2", ⟨30, 1, 1, 0, false⟩),
    ("ANGLE_ENABLED", ⟨52, 1, 1, 0, false⟩), ("STEERING_ANGLE", ⟨54, 12, 1, -2048, false⟩)]

theorem camLkas_eq : camLkas = camLkasLsb := by decide +kernel

theorem camLkas_layout : Layout 8 camLkas := by
  rw [camLkas_eq]
  exact ⟨by decide +kernel, by decide +kernel⟩

theorem or_eq_add {a b : Nat} (i : Nat) (h : b < 2 ^ i) : a <<< i ||| b = a * 2 ^ i + b := by
  rw [← Nat.shiftLeft_add_eq_or_of_lt h, Nat.shiftLeft_eq]

theorem and_mask (x i : Nat) : x &&& (2 ^ i - 1) = x % 2 ^ i := Nat.and_two_pow_sub_one_eq_mod x i

/-- The two bytes of the torque, as the firmware and the validator read them. -/
theorem torque_read (b0 b1 : UInt8) :
    ((b0.toNat &&& 0x0F) <<< 8 ||| b1.toNat) = b0.toNat % 16 * 256 + b1.toNat := by
  have hb := b1.toNat_lt
  rw [or_eq_add 8 hb]
  exact congrArg (· * 256 + b1.toNat) (and_mask b0.toNat 4)

theorem angle_read (b4 b5 b6 : UInt8) :
    ((b4.toNat &&& 0x03) <<< 10 ||| b5.toNat <<< 2 ||| ((b6.toNat >>> 6) &&& 0x03)) =
      b4.toNat % 4 * 1024 + b5.toNat * 4 + b6.toNat / 64 := by
  have h5 := b5.toNat_lt
  have h6 := b6.toNat_lt
  have htop : b6.toNat >>> 6 = b6.toNat / 64 := Nat.shiftRight_eq_div_pow _ 6
  have hlow : (b6.toNat >>> 6) &&& 0x03 = b6.toNat / 64 := by
    rw [htop]
    exact (and_mask _ 2).trans (Nat.mod_eq_of_lt (by omega))
  have hmask : b4.toNat &&& 0x03 = b4.toNat % 4 := and_mask _ 2
  have hmid : (b4.toNat &&& 0x03) <<< 10 ||| b5.toNat <<< 2 =
      (b4.toNat % 4 * 256 + b5.toNat) <<< 2 := by
    rw [or_eq_add 10 (by rw [Nat.shiftLeft_eq]; omega), Nat.shiftLeft_eq, Nat.shiftLeft_eq]
    omega
  rw [hlow, hmid, or_eq_add 2 (by omega)]
  omega

theorem bit_read (b : UInt8) (i : Nat) : (b.toNat >>> i) &&& 1 = b.toNat / 2 ^ i % 2 := by
  rw [Nat.shiftRight_eq_div_pow]
  exact and_mask _ 1

section Reads

variable (d0 d1 d2 d3 d4 d5 d6 d7 : UInt8)

theorem getRawValue_torque :
    getRawValue [d0, d1, d2, d3, d4, d5, d6, d7] ⟨8, 12, 1, -2048, false⟩ =
      d0.toNat % 16 * 256 + d1.toNat := by
  have hlow : d1.toNat &&& 255 = d1.toNat := (and_mask _ 8).trans (Nat.mod_eq_of_lt d1.toNat_lt)
  have hread : getRawValue [d0, d1, d2, d3, d4, d5, d6, d7] ⟨8, 12, 1, -2048, false⟩ =
      (d0.toNat &&& 15) <<< 8 ||| d1.toNat &&& 255 := by
    simp [getRawValue, Signal.rawLoop, Signal.msb]
  rw [hread, hlow, torque_read]

theorem getRawValue_angle :
    getRawValue [d0, d1, d2, d3, d4, d5, d6, d7] ⟨54, 12, 1, -2048, false⟩ =
      d4.toNat % 4 * 1024 + d5.toNat * 4 + d6.toNat / 64 := by
  have hmid : d5.toNat &&& 255 = d5.toNat := (and_mask _ 8).trans (Nat.mod_eq_of_lt d5.toNat_lt)
  have hread : getRawValue [d0, d1, d2, d3, d4, d5, d6, d7] ⟨54, 12, 1, -2048, false⟩ =
      (d4.toNat &&& 3) <<< 10 ||| (d5.toNat &&& 255) <<< 2 ||| d6.toNat >>> 6 &&& 3 := by
    simp [getRawValue, Signal.rawLoop, Signal.msb]
  rw [hread, hmid, angle_read]

end Reads

theorem toList_eight (d : Vector UInt8 8) :
    d.toList = [d.get 0, d.get 1, d.get 2, d.get 3, d.get 4, d.get 5, d.get 6, d.get 7] := by
  refine List.ext_getElem (by simp) fun i hi hi' => ?_
  have hlt : i < 8 := by simpa using hi
  rw [Vector.getElem_toList]
  interval_cases i <;> rfl

section Packed

variable {d : Vector UInt8 8} {values : List (String × Rat)}
  (hd : d.toList = packList 8 camLkas values) (hnodup : (values.map Prod.fst).Nodup)

include hd hnodup in
theorem packed_wide (name : String) (sig : Signal) (o v : Int)
    (hsig : camLkasLsb.lookup name = some sig) (hfactor : sig.factor = 1) (hoffset : sig.offset = o)
    (hv : (name, (v : Rat)) ∈ values) :
    getRawValue [d.get 0, d.get 1, d.get 2, d.get 3, d.get 4, d.get 5, d.get 6, d.get 7] sig =
      ((v - o) % 2 ^ sig.size).toNat := by
  rw [← toList_eight, hd]
  rw [← camLkas_eq] at hsig
  exact getRawValue_pack_int camLkas_layout hsig hfactor hoffset hnodup hv

include hd hnodup in
/-- A field that lies in one byte. -/
theorem packed_field (name : String) (sig : Signal) (v : Nat)
    (hsig : camLkasLsb.lookup name = some sig) (hfactor : sig.factor = 1)
    (hoffset : sig.offset = (0 : Int)) (hv : (name, ((v : Int) : Rat)) ∈ values)
    (hfit : sig.Fits 8) (hin : sig.lsb % 8 + sig.size ≤ 8) (hlt : v < 2 ^ sig.size) :
    ([d.get 0, d.get 1, d.get 2, d.get 3, d.get 4, d.get 5, d.get 6, d.get 7].getD
      (sig.lsb / 8) 0).toNat / 2 ^ (sig.lsb % 8) % 2 ^ sig.size = v := by
  have hmod : (((v : Int) - 0) % 2 ^ sig.size).toNat = v := by
    rw [sub_zero, Int.emod_eq_of_lt (by omega) (by exact_mod_cast hlt), Int.toNat_natCast]
  rw [← getRawValue_inByte hfit hin, packed_wide hd hnodup name sig 0 v hsig hfactor hoffset hv,
    hmod]

include hd in
/-- A gap between the fields. -/
theorem packed_gap (sig : Signal) (hfit : sig.Fits 8) (hin : sig.lsb % 8 + sig.size ≤ 8)
    (hapart : ∀ p ∈ camLkasLsb, p.2.Apart sig) :
    ([d.get 0, d.get 1, d.get 2, d.get 3, d.get 4, d.get 5, d.get 6, d.get 7].getD
      (sig.lsb / 8) 0).toNat / 2 ^ (sig.lsb % 8) % 2 ^ sig.size = 0 := by
  rw [← camLkas_eq] at hapart
  rw [← getRawValue_inByte hfit hin, ← toList_eight, hd]
  exact getRawValue_pack_free camLkas_layout _ hfit hapart

include hd hnodup in
theorem packed_head {ctr tmp : Nat} {t : Int} (hctr : ctr < 16) (ht : (t + 2048) % 4096 = tmp)
    (hvctr : ("CTR", ((ctr : Int) : Rat)) ∈ values) (hvt : ("LKAS_REQUEST", (t : Rat)) ∈ values) :
    (d.get 0).toNat = ctr * 16 + tmp / 256 ∧ (d.get 1).toNat = tmp % 256 := by
  have ctr' : (d.get 0).toNat / 16 % 16 = ctr :=
    packed_field hd hnodup "CTR" ⟨4, 4, 1, 0, false⟩ ctr rfl rfl rfl hvctr (by decide) (by decide)
      hctr
  have torque' : (d.get 0).toNat % 16 * 256 + (d.get 1).toNat = ((t - -2048) % 2 ^ 12).toNat :=
    (getRawValue_torque _ _ _ _ _ _ _ _).symm.trans
      (packed_wide hd hnodup "LKAS_REQUEST" ⟨8, 12, 1, -2048, false⟩ (-2048) t rfl rfl rfl hvt)
  have h0 := (d.get 0).toNat_lt
  have h1 := (d.get 1).toNat_lt
  omega

include hd hnodup in
theorem packed_flags {er1 lnv ldw b1 er2 : Nat} (her1 : er1 < 2) (hlnv : lnv < 2) (hldw : ldw < 2)
    (hb1 : b1 < 2) (her2 : er2 < 2) (hver1 : ("ERR_BIT_1", ((er1 : Int) : Rat)) ∈ values)
    (hvlnv : ("LINE_NOT_VISIBLE", ((lnv : Int) : Rat)) ∈ values)
    (hvldw : ("LDW", ((ldw : Int) : Rat)) ∈ values)
    (hvb1 : ("BIT_1", ((b1 : Int) : Rat)) ∈ values)
    (hver2 : ("ERR_BIT_2", ((er2 : Int) : Rat)) ∈ values) :
    (d.get 2).toNat = er1 + 8 * lnv + 128 * ldw ∧ (d.get 3).toNat = 32 * b1 + 64 * er2 := by
  have hfield := packed_field hd hnodup
  have hgap := packed_gap hd
  constructor
  · have er1' : (d.get 2).toNat / 1 % 2 = er1 :=
      hfield "ERR_BIT_1" ⟨16, 1, 1, 0, false⟩ er1 rfl rfl rfl hver1 (by decide) (by decide) her1
    have gap17 : (d.get 2).toNat / 2 % 4 = 0 :=
      hgap ⟨17, 2, 1, 0, true⟩ (by decide) (by decide) (by decide)
    have lnv' : (d.get 2).toNat / 8 % 2 = lnv :=
      hfield "LINE_NOT_VISIBLE" ⟨19, 1, 1, 0, false⟩ lnv rfl rfl rfl hvlnv (by decide) (by decide)
        hlnv
    have gap20 : (d.get 2).toNat / 16 % 8 = 0 :=
      hgap ⟨20, 3, 1, 0, true⟩ (by decide) (by decide) (by decide)
    have ldw' : (d.get 2).toNat / 128 % 2 = ldw :=
      hfield "LDW" ⟨23, 1, 1, 0, false⟩ ldw rfl rfl rfl hvldw (by decide) (by decide) hldw
    have h2 := (d.get 2).toNat_lt
    omega
  · have gap24 : (d.get 3).toNat / 1 % 32 = 0 :=
      hgap ⟨24, 5, 1, 0, true⟩ (by decide) (by decide) (by decide)
    have b1' : (d.get 3).toNat / 32 % 2 = b1 :=
      hfield "BIT_1" ⟨29, 1, 1, 0, false⟩ b1 rfl rfl rfl hvb1 (by decide) (by decide) hb1
    have er2' : (d.get 3).toNat / 64 % 2 = er2 :=
      hfield "ERR_BIT_2" ⟨30, 1, 1, 0, false⟩ er2 rfl rfl rfl hver2 (by decide) (by decide) her2
    have gap31 : (d.get 3).toNat / 128 % 2 = 0 :=
      hgap ⟨31, 1, 1, 0, true⟩ (by decide) (by decide) (by decide)
    have h3 := (d.get 3).toNat_lt
    omega

include hd hnodup in
theorem packed_angle {angle : Nat} {a : Int} (ha : (a + 2048) % 4096 = angle)
    (hva : ("STEERING_ANGLE", (a : Rat)) ∈ values)
    (hvb2 : ("ANGLE_ENABLED", (((0 : Nat) : Int) : Rat)) ∈ values) :
    (d.get 4).toNat = angle / 1024 ∧ (d.get 5).toNat = angle / 4 % 256 ∧
      (d.get 6).toNat = angle % 4 * 64 := by
  have hgap := packed_gap hd
  have angle' : (d.get 4).toNat % 4 * 1024 + (d.get 5).toNat * 4 + (d.get 6).toNat / 64 =
      ((a - -2048) % 2 ^ 12).toNat :=
    (getRawValue_angle _ _ _ _ _ _ _ _).symm.trans
      (packed_wide hd hnodup "STEERING_ANGLE" ⟨54, 12, 1, -2048, false⟩ (-2048) a rfl rfl rfl hva)
  have gap34 : (d.get 4).toNat / 4 % 64 = 0 :=
    hgap ⟨34, 6, 1, 0, true⟩ (by decide) (by decide) (by decide)
  have gap48 : (d.get 6).toNat / 1 % 16 = 0 :=
    hgap ⟨48, 4, 1, 0, true⟩ (by decide) (by decide) (by decide)
  have b2' : (d.get 6).toNat / 16 % 2 = 0 :=
    packed_field hd hnodup "ANGLE_ENABLED" ⟨52, 1, 1, 0, false⟩ 0 rfl rfl rfl hvb2 (by decide)
      (by decide) (by decide)
  have gap53 : (d.get 6).toNat / 32 % 2 = 0 :=
    hgap ⟨53, 1, 1, 0, true⟩ (by decide) (by decide) (by decide)
  have h4 := (d.get 4).toNat_lt
  have h5 := (d.get 5).toNat_lt
  have h6 := (d.get 6).toNat_lt
  have hsix : (d.get 6).toNat = (d.get 6).toNat / 64 * 64 := by omega
  have hfour : (d.get 4).toNat % 4 = (d.get 4).toNat := by omega
  omega

end Packed

/-- The bytes of a frame with these fields. -/
structure LkasBytes (d : Vector UInt8 8) (ctr tmp er1 lnv ldw b1 er2 angle csum : Nat) : Prop where
  byte0 : (d.get 0).toNat = ctr * 16 + tmp / 256
  byte1 : (d.get 1).toNat = tmp % 256
  byte2 : (d.get 2).toNat = er1 + 8 * lnv + 128 * ldw
  byte3 : (d.get 3).toNat = 32 * b1 + 64 * er2
  byte4 : (d.get 4).toNat = angle / 1024
  byte5 : (d.get 5).toNat = angle / 4 % 256
  byte6 : (d.get 6).toNat = angle % 4 * 64
  byte7 : (d.get 7).toNat = csum

theorem lkasBytes_pack {ctr tmp er1 lnv ldw b1 er2 angle csum : Nat} (hctr : ctr < 16)
    (her1 : er1 < 2) (hlnv : lnv < 2) (hldw : ldw < 2) (hb1 : b1 < 2) (her2 : er2 < 2)
    (hcsum : csum < 256) {t a : Int} (ht : (t + 2048) % 4096 = tmp)
    (ha : (a + 2048) % 4096 = angle) :
    LkasBytes (pack 8 camLkas (lkasValues t ctr er1 lnv ldw b1 er2 a 0 csum)) ctr tmp er1 lnv ldw b1
      er2 angle csum := by
  obtain ⟨values, hvalues⟩ : ∃ vs, vs = lkasValues t ctr er1 lnv ldw b1 er2 a 0 csum := ⟨_, rfl⟩
  obtain ⟨d, hd⟩ : ∃ d, d = pack 8 camLkas values := ⟨_, rfl⟩
  have hlist : d.toList = packList 8 camLkas values := by rw [hd, pack_toList]
  have hnodup : (values.map Prod.fst).Nodup := by
    rw [hvalues]
    simp [lkasValues]
  obtain ⟨h0, h1⟩ := packed_head hlist hnodup hctr ht (by simp [hvalues, lkasValues])
    (by simp [hvalues, lkasValues])
  obtain ⟨h2, h3⟩ := packed_flags hlist hnodup her1 hlnv hldw hb1 her2
    (by simp [hvalues, lkasValues]) (by simp [hvalues, lkasValues]) (by simp [hvalues, lkasValues])
    (by simp [hvalues, lkasValues]) (by simp [hvalues, lkasValues])
  obtain ⟨h4, h5, h6⟩ := packed_angle hlist hnodup ha (by simp [hvalues, lkasValues])
    (by simp [hvalues, lkasValues])
  have h7 : (d.get 7).toNat / 1 % 256 = csum :=
    packed_field hlist hnodup "CHKSUM" ⟨56, 8, 1, 0, false⟩ csum rfl rfl rfl
      (by simp [hvalues, lkasValues]) (by decide) (by decide) hcsum
  have h7' : (d.get 7).toNat = csum := by
    have hlt := (d.get 7).toNat_lt
    omega
  rw [← hvalues, ← hd]
  exact ⟨h0, h1, h2, h3, h4, h5, h6, h7'⟩

/-! ## What is read out of a frame that was built -/

theorem clampAngle_bounds (a : Int) : -2048 ≤ clampAngle a ∧ clampAngle a ≤ 2047 := by
  unfold clampAngle
  omega

theorem clampAngle_self {a : Int} (hlo : -2048 ≤ a) (hhi : a ≤ 2047) : clampAngle a = a := by
  unfold clampAngle
  omega

theorem lkasChecksum_bounds (ctr tmp er1 lnv ldw er2 b1 angle b2 : Int) :
    0 ≤ lkasChecksum ctr tmp er1 lnv ldw er2 b1 angle b2 ∧
      lkasChecksum ctr tmp er1 lnv ldw er2 b1 angle b2 < 256 :=
  ⟨Int.emod_nonneg _ (by decide), Int.emod_lt_of_pos _ (by decide)⟩

/-- What `create_steering_control` puts into the fields. -/
theorem createSteeringControl_bytes (copyCamLines : Bool) (frame : Nat) (t : Int) (lkas : CamBits)
    (a : Int) :
    LkasBytes (createSteeringControl copyCamLines frame t lkas a) (frame % 16)
      ((t + 2048) % 4096).toNat lkas.errBit1.toNat (copyCamLines && lkas.lineNotVisible).toNat
      (copyCamLines && lkas.ldw).toNat lkas.bit1.toNat lkas.errBit2.toNat
      (clampAngle a + 2048).toNat
      (lkasChecksum (frame % 16 : Nat) (t + 2048) lkas.errBit1.toNat
        (copyCamLines && lkas.lineNotVisible).toNat (copyCamLines && lkas.ldw).toNat
        lkas.errBit2.toNat lkas.bit1.toNat (clampAngle a + 2048) 0).toNat := by
  have hcopy : ∀ b : Bool, (if copyCamLines then (b.toNat : Int) else 0) =
      ((copyCamLines && b).toNat : Nat) := by
    intro b
    cases copyCamLines <;> rfl
  obtain ⟨hclo, hchi⟩ := clampAngle_bounds a
  obtain ⟨hslo, hshi⟩ := lkasChecksum_bounds (frame % 16 : Nat) (t + 2048) lkas.errBit1.toNat
    (copyCamLines && lkas.lineNotVisible).toNat (copyCamLines && lkas.ldw).toNat
    lkas.errBit2.toNat lkas.bit1.toNat (clampAngle a + 2048) 0
  have hsum := Int.toNat_of_nonneg hslo
  unfold createSteeringControl
  dsimp only
  rw [hcopy, hcopy, ← hsum]
  refine lkasBytes_pack (Nat.mod_lt _ (by decide)) (Bool.toNat_lt _) (Bool.toNat_lt _)
    (Bool.toNat_lt _) (Bool.toNat_lt _) (Bool.toNat_lt _) (by omega) ?_ ?_
  · exact (Int.toNat_of_nonneg (Int.emod_nonneg _ (by decide))).symm
  · rw [Int.emod_eq_of_lt (by omega) (by omega), Int.toNat_of_nonneg (by omega)]

/-- The frames that `create_steering_control` builds from a torque of twelve bits. -/
def Built (copyCamLines : Bool) (d : Vector UInt8 8) : Prop :=
  ∃ (frame : Nat) (t : Int) (lkas : CamBits) (a : Int), -2048 ≤ t ∧ t ≤ 2047 ∧
    d = createSteeringControl copyCamLines frame t lkas a

section Reading

variable {d : Vector UInt8 8} {ctr tmp er1 lnv ldw b1 er2 angle csum : Nat}
  (h : LkasBytes d ctr tmp er1 lnv ldw b1 er2 angle csum)
include h

theorem LkasBytes.torque_eq (htmp : tmp < 4096) : camTorque d = (tmp : Int) - 2048 := by
  have h0 : (byteAt d 0).toNat = _ := h.byte0
  have h1 : (byteAt d 1).toNat = _ := h.byte1
  unfold camTorque
  rw [torque_read]
  omega

theorem LkasBytes.ctr_eq (htmp : tmp < 4096) : (byteAt d 0).toNat >>> 4 = ctr := by
  have h0 : (byteAt d 0).toNat = _ := h.byte0
  rw [Nat.shiftRight_eq_div_pow]
  omega

theorem LkasBytes.angle_eq (hangle : angle < 4096) : camAngle d = (angle : Int) - 2048 := by
  have h4 : (byteAt d 4).toNat = _ := h.byte4
  have h5 : (byteAt d 5).toNat = _ := h.byte5
  have h6 : (byteAt d 6).toNat = _ := h.byte6
  unfold camAngle
  rw [angle_read]
  omega

theorem LkasBytes.lnv_eq (her1 : er1 < 2) (hlnv : lnv < 2) : camLnv d = lnv := by
  have h2 : (byteAt d 2).toNat = _ := h.byte2
  unfold camLnv
  rw [bit_read]
  omega

theorem LkasBytes.ldw_eq (her1 : er1 < 2) (hlnv : lnv < 2) (hldw : ldw < 2) : camLdw d = ldw := by
  have h2 : (byteAt d 2).toNat = _ := h.byte2
  unfold camLdw
  rw [bit_read]
  omega

theorem LkasBytes.angleEnabled_eq : camAngleEnabled d = 0 := by
  have h6 : (byteAt d 6).toNat = _ := h.byte6
  unfold camAngleEnabled
  rw [bit_read]
  omega

end Reading

/-- A flag in a byte of flags. -/
theorem LkasBytes.bits_eq {d : Vector UInt8 8} {ctr tmp angle csum : Nat}
    {er1 lnv ldw b1 er2 : Bool}
    (h : LkasBytes d ctr tmp er1.toNat lnv.toNat ldw.toNat b1.toNat er2.toNat angle csum) :
    camBits d =
      { bit1 := b1, errBit1 := er1, errBit2 := er2, lineNotVisible := lnv, ldw := ldw } := by
  have h2 : (byteAt d 2).toNat = _ := h.byte2
  have h3 : (byteAt d 3).toNat = _ := h.byte3
  have her1 := Bool.toNat_lt er1
  have hlnv := Bool.toNat_lt lnv
  have hldw := Bool.toNat_lt ldw
  have hb1 := Bool.toNat_lt b1
  have her2 := Bool.toNat_lt er2
  have hflag : ∀ (b : Bool) (x : Nat), x = b.toNat → (x != 0) = b := by
    rintro b x rfl
    cases b <;> rfl
  have hfirst : (byteAt d 2).toNat &&& 1 = er1.toNat := (and_mask _ 1).trans (by omega)
  unfold camBits
  rw [hflag lnv _ (h.lnv_eq her1 hlnv), hflag ldw _ (h.ldw_eq her1 hlnv hldw), hflag er1 _ hfirst,
    hflag b1 _ (by rw [bit_read]; omega), hflag er2 _ (by rw [bit_read]; omega)]

theorem built_not_skipped {copyCamLines : Bool} {d : Vector UInt8 8} (h : Built copyCamLines d) :
    skipped copyCamLines d = false := by
  obtain ⟨frame, t, lkas, a, -, -, rfl⟩ := h
  have hbytes := createSteeringControl_bytes copyCamLines frame t lkas a
  unfold skipped
  rw [hbytes.angleEnabled_eq, hbytes.lnv_eq (Bool.toNat_lt _) (Bool.toNat_lt _),
    hbytes.ldw_eq (Bool.toNat_lt _) (Bool.toNat_lt _) (Bool.toNat_lt _)]
  cases copyCamLines
  · rfl
  · simp

theorem rebuild_built {copyCamLines : Bool} {d : Vector UInt8 8} (h : Built copyCamLines d) :
    rebuild copyCamLines d = d := by
  obtain ⟨frame, t, lkas, a, hlo, hhi, rfl⟩ := h
  have hbytes := createSteeringControl_bytes copyCamLines frame t lkas a
  obtain ⟨hclo, hchi⟩ := clampAngle_bounds a
  have htmp : ((t + 2048) % 4096).toNat < 4096 := by omega
  have htorque : camTorque (createSteeringControl copyCamLines frame t lkas a) = t := by
    rw [hbytes.torque_eq htmp]
    omega
  have hangle : camAngle (createSteeringControl copyCamLines frame t lkas a) = clampAngle a := by
    rw [hbytes.angle_eq (by omega)]
    omega
  unfold rebuild
  rw [hbytes.ctr_eq htmp, htorque, hangle, hbytes.bits_eq]
  unfold createSteeringControl
  dsimp only
  rw [clampAngle_self hclo hchi, Nat.mod_mod]
  cases copyCamLines <;> rfl

/-- The validator builds exactly the frames again that the packer can build. -/
theorem built_iff (copyCamLines : Bool) (d : Vector UInt8 8) :
    Built copyCamLines d ↔ skipped copyCamLines d = false ∧ rebuild copyCamLines d = d := by
  constructor
  · intro h
    exact ⟨built_not_skipped h, rebuild_built h⟩
  · rintro ⟨-, h⟩
    have h0 := (byteAt d 0).toNat_lt
    have h1 := (byteAt d 1).toNat_lt
    have htorque : camTorque d =
        ((byteAt d 0).toNat % 16 * 256 + (byteAt d 1).toNat : Nat) - 2048 := by
      unfold camTorque
      rw [torque_read]
    refine ⟨_, _, _, _, ?_, ?_, h.symm⟩
    · omega
    · omega

instance (copyCamLines : Bool) (d : Vector UInt8 8) : Decidable (Built copyCamLines d) :=
  decidable_of_iff _ (built_iff copyCamLines d).symm

/-! ## The validator over a run -/

/-- A frame that the validator compares and finds different. -/
def mismatched (copyCamLines : Bool) (d : Vector UInt8 8) : Bool :=
  !skipped copyCamLines d && !decide (Built copyCamLines d)

/-- The counters that the run speaks of. -/
structure Counted (s s' : CamState) (ok skip bad : Nat) (kept : List (Vector UInt8 8))
    (peak : Nat) : Prop where
  ckOk : s'.ckOk = s.ckOk + ok
  ckSkip : s'.ckSkip = s.ckSkip + skip
  ckBad : s'.ckBad = s.ckBad + bad
  kept : s'.ckBadFrames.map (·.cam) = s.ckBadFrames.map (·.cam) ++ kept
  peak : s'.trqPeak = max s.trqPeak peak

theorem countFlags_eq (s : CamState) (d : Vector UInt8 8) :
    ∃ lnv ldw ang, countFlags s d = { s with ckLnv := lnv, ckLdw := ldw, ckAng := ang } := by
  unfold countFlags
  dsimp only
  split <;> split <;> split <;> exact ⟨_, _, _, rfl⟩

theorem compareFrame_same (s : CamState) (d : Vector UInt8 8) :
    ∃ seen, compareFrame s d d =
      { s with
        ckOk := s.ckOk + 1
        ckAngleSeen := seen
        trqPeak := max s.trqPeak (camTorque d).natAbs } := by
  have heq : (d == d) = true := beq_self_eq_true d
  unfold compareFrame
  dsimp only
  rw [heq, if_pos rfl, if_pos rfl]
  split <;> exact ⟨_, rfl⟩

theorem keepBadFrame_eq (s : CamState) (d ref : Vector UInt8 8) :
    ∃ frames, keepBadFrame s d ref = { s with ckBadFrames := frames } ∧
      frames.map (·.cam) =
        s.ckBadFrames.map (·.cam) ++ if s.ckBadFrames.length < 40 then [d] else [] := by
  unfold keepBadFrame
  split
  · exact ⟨_, rfl, List.map_append⟩
  · exact ⟨_, rfl, (List.append_nil _).symm⟩

theorem compareFrame_differs (s : CamState) {d ref : Vector UInt8 8} (h : ref ≠ d) :
    ∃ seen frames, compareFrame s d ref =
        { s with ckBad := s.ckBad + 1, ckAngleSeen := seen, ckBadFrames := frames } ∧
      frames.map (·.cam) =
        s.ckBadFrames.map (·.cam) ++ if s.ckBadFrames.length < 40 then [d] else [] := by
  have heq : (ref == d) = false := beq_eq_false_iff_ne.2 h
  obtain ⟨frames, hkeep, hframes⟩ := keepBadFrame_eq { s with ckBad := s.ckBad + 1 } d ref
  unfold compareFrame
  simp only [heq, Bool.false_eq_true, if_false, hkeep]
  split
  · exact ⟨_, frames, rfl, hframes⟩
  · exact ⟨_, frames, rfl, hframes⟩

/-- What one frame does. -/
theorem validateCamChecksum_step (copyCamLines : Bool) (s : CamState) (d : Vector UInt8 8) :
    Counted s (validateCamChecksum copyCamLines s d) (decide (Built copyCamLines d)).toNat
      (skipped copyCamLines d).toNat (mismatched copyCamLines d).toNat
      (if mismatched copyCamLines d && decide (s.ckBadFrames.length < 40) then [d] else [])
      (if Built copyCamLines d then (camTorque d).natAbs else 0) := by
  have hbuilt := built_iff copyCamLines d
  obtain ⟨lnv, ldw, ang, hflags⟩ := countFlags_eq s d
  unfold mismatched validateCamChecksum
  dsimp only
  rw [hflags]
  cases hskip : skipped copyCamLines d with
  | true =>
    have hno : ¬ Built copyCamLines d := by
      intro h
      rw [built_not_skipped h] at hskip
      cases hskip
    rw [if_pos rfl, if_neg hno, decide_eq_false hno]
    exact ⟨rfl, rfl, rfl, (List.append_nil _).symm, (Nat.max_zero _).symm⟩
  | false =>
    rw [if_neg (by decide)]
    by_cases hok : Built copyCamLines d
    · rw [rebuild_built hok, if_pos hok, decide_eq_true hok]
      obtain ⟨seen, hsame⟩ := compareFrame_same
        { s with ckLnv := lnv, ckLdw := ldw, ckAng := ang } d
      rw [hsame]
      exact ⟨rfl, rfl, rfl, (List.append_nil _).symm, rfl⟩
    · have hne : rebuild copyCamLines d ≠ d := fun heq => hok (hbuilt.2 ⟨hskip, heq⟩)
      obtain ⟨seen, frames, hdiffers, hframes⟩ := compareFrame_differs
        { s with ckLnv := lnv, ckLdw := ldw, ckAng := ang } hne
      rw [hdiffers, if_neg hok, decide_eq_false hok]
      refine ⟨rfl, rfl, rfl, ?_, (Nat.max_zero _).symm⟩
      rw [hframes]
      simp

/-- Over any frames of the camera, the validator counts as good exactly those that the packer can
build, keeps the first forty of those that it cannot, and takes the peak of the torque over the good
ones. -/
theorem validator_run (copyCamLines : Bool) (ds : List (Vector UInt8 8)) :
    (validated copyCamLines ds).ckOk = ds.countP (fun d => decide (Built copyCamLines d)) ∧
      (validated copyCamLines ds).ckSkip = ds.countP (skipped copyCamLines) ∧
      (validated copyCamLines ds).ckOk + (validated copyCamLines ds).ckBad +
        (validated copyCamLines ds).ckSkip = ds.length ∧
      (validated copyCamLines ds).ckBadFrames.map (·.cam) =
        (ds.filter (mismatched copyCamLines)).take 40 ∧
      (validated copyCamLines ds).trqPeak =
        ((ds.filter (fun d => decide (Built copyCamLines d))).map
          (fun d => (camTorque d).natAbs)).foldl max 0 := by
  induction ds using List.reverseRecOn with
  | nil => exact ⟨rfl, rfl, rfl, rfl, rfl⟩
  | append_singleton ds d ih =>
    obtain ⟨hok, hskip, hall, hbad, hpeak⟩ := ih
    have hstep := validateCamChecksum_step copyCamLines (validated copyCamLines ds) d
    rw [validated_snoc]
    have hkept : (validated copyCamLines ds).ckBadFrames.length =
        min 40 (ds.filter (mismatched copyCamLines)).length := by
      rw [← List.length_map (·.cam), hbad, List.length_take]
    refine ⟨?_, ?_, ?_, ?_, ?_⟩
    · rw [hstep.ckOk, hok, List.countP_append, List.countP_singleton]
      cases decide (Built copyCamLines d) <;> rfl
    · rw [hstep.ckSkip, hskip, List.countP_append, List.countP_singleton]
      cases skipped copyCamLines d <;> rfl
    · have hone : (decide (Built copyCamLines d)).toNat + (mismatched copyCamLines d).toNat +
          (skipped copyCamLines d).toNat = 1 := by
        unfold mismatched
        by_cases hd : Built copyCamLines d
        · rw [built_not_skipped hd, decide_eq_true hd]
          rfl
        · rw [decide_eq_false hd]
          cases skipped copyCamLines d <;> rfl
      rw [hstep.ckOk, hstep.ckBad, hstep.ckSkip, List.length_append, List.length_singleton]
      omega
    · rw [hstep.kept, hbad, hkept, List.filter_append, List.take_append]
      cases hmis : mismatched copyCamLines d with
      | false => simp [hmis]
      | true =>
        have hfilter : [d].filter (mismatched copyCamLines) = [d] := by simp [hmis]
        rw [hfilter, Bool.true_and]
        by_cases hroom : (ds.filter (mismatched copyCamLines)).length < 40
        · have hfits : [d].length ≤ 40 - (ds.filter (mismatched copyCamLines)).length := by
            rw [List.length_singleton]
            omega
          rw [if_pos (decide_eq_true (by omega)), List.take_of_length_le hroom.le,
            List.take_of_length_le hfits]
        · have hfull :
              ¬ decide (min 40 (ds.filter (mismatched copyCamLines)).length < 40) = true := by
            rw [decide_eq_true_eq]
            omega
          rw [if_neg hfull, Nat.sub_eq_zero_of_le (by omega), List.take_zero]
    · rw [hstep.peak, hpeak, List.filter_append]
      by_cases hd : Built copyCamLines d
      · simp [hd]
      · simp [hd]

/-! ## One wrong bit -/

def flipBit (d : Vector UInt8 8) (i : Fin 8) (k : Fin 8) : Vector UInt8 8 :=
  d.set i (d.get i ^^^ UInt8.ofNat (2 ^ k.val))

/-- The bits of byte `i` that a frame of the packer has clear. -/
def unusedBits : Fin 8 → Nat
  | 0 => 0
  | 1 => 0
  | 2 => 0x76
  | 3 => 0x9f
  | 4 => 0xfc
  | 5 => 0
  | 6 => 0x3f
  | 7 => 0

/-- What byte `i` takes off the sum. The 15 that is added for the angle is 241 taken off. -/
def weight (i : Fin 8) (b : Nat) : Nat :=
  match i with
  | 0 => b / 16 + b % 16
  | 1 => b
  | 2 => b
  | 3 => b / 32 % 2 * 32 + b / 64 * 16
  | 4 => if b = 1 then b + 241 else b
  | 5 => b / 16 + b % 16 * 16
  | 6 => b / 64 * 4
  | 7 => b

/-- What is taken off and the sum make 249. -/
structure Summed (d : Vector UInt8 8) : Prop where
  unused : ∀ i : Fin 8, (d.get i).toNat &&& unusedBits i = 0
  sum : (∑ i : Fin 8, weight i (d.get i).toNat) % 256 = 249

/-- A wrong bit is one of those that should be clear, or changes what the byte takes off. -/
theorem weight_flip : ∀ i : Fin 8, ∀ b < 256, ∀ k < 8, b &&& unusedBits i = 0 →
    (b ^^^ 2 ^ k) &&& unusedBits i = 0 → weight i (b ^^^ 2 ^ k) % 256 ≠ weight i b % 256 := by
  decide +kernel

/-- The two corrections before the last remainder do not change it. -/
theorem lkasChecksum_mod (ctr tmp er1 lnv ldw er2 b1 angle : Nat) {fudge : Nat}
    (hfudge : fudge = if angle / 1024 = 1 then angle / 1024 + 241 else angle / 1024) :
    (lkasChecksum ctr tmp er1 lnv ldw er2 b1 angle 0 + (ctr + tmp / 256 + tmp % 256 +
      (er1 + 8 * lnv + 128 * ldw) + (32 * b1 + 16 * er2) + fudge +
      (angle % 1024 / 4 / 16 + angle % 1024 / 4 % 16 * 16) + angle % 4 * 4 : Nat)) % 256 = 249 := by
  have hcorrect : ∀ c : Int,
      (if c < 0 then if c < -256 then c + 512 else c + 256 else c) % 256 = c % 256 := by
    intro c
    split
    · split <;> omega
    · rfl
  have hahi : (angle : Int) / 2 ^ 10 = 1 ↔ angle / 1024 = 1 := by omega
  unfold lkasChecksum
  dsimp only
  rw [hcorrect]
  by_cases h : angle / 1024 = 1
  · rw [if_pos h] at hfudge
    rw [if_pos (hahi.2 h)]
    push_cast
    omega
  · rw [if_neg h] at hfudge
    rw [if_neg (fun h' => h (hahi.1 h'))]
    push_cast
    omega

theorem LkasBytes.unused {d : Vector UInt8 8} {ctr tmp angle csum : Nat}
    {er1 lnv ldw b1 er2 : Bool}
    (h : LkasBytes d ctr tmp er1.toNat lnv.toNat ldw.toNat b1.toNat er2.toNat angle csum)
    (hangle : angle < 4096) (i : Fin 8) : (d.get i).toNat &&& unusedBits i = 0 := by
  have hzero : ∀ x : UInt8, x.toNat &&& 0 = 0 := fun x => Nat.and_zero _
  fin_cases i
  · exact hzero _
  · exact hzero _
  · have h2 := h.byte2
    change (d.get 2).toNat &&& 0x76 = 0
    rw [h2]
    cases er1 <;> cases lnv <;> cases ldw <;> rfl
  · have h3 := h.byte3
    change (d.get 3).toNat &&& 0x9f = 0
    rw [h3]
    cases b1 <;> cases er2 <;> rfl
  · have h4 := h.byte4
    have hlt : angle / 1024 < 4 := by omega
    change (d.get 4).toNat &&& 0xfc = 0
    rw [h4]
    generalize angle / 1024 = x at hlt
    interval_cases x <;> rfl
  · exact hzero _
  · have h6 := h.byte6
    have hlt : angle % 4 < 4 := by omega
    change (d.get 6).toNat &&& 0x3f = 0
    rw [h6]
    generalize angle % 4 = x at hlt
    interval_cases x <;> rfl
  · exact hzero _

theorem LkasBytes.weights {d : Vector UInt8 8} {ctr tmp er1 lnv ldw b1 er2 angle csum : Nat}
    (h : LkasBytes d ctr tmp er1 lnv ldw b1 er2 angle csum) (htmp : tmp < 4096) (hb1 : b1 < 2) :
    weight 0 (d.get 0).toNat = ctr + tmp / 256 ∧ weight 1 (d.get 1).toNat = tmp % 256 ∧
      weight 2 (d.get 2).toNat = er1 + 8 * lnv + 128 * ldw ∧
      weight 3 (d.get 3).toNat = 32 * b1 + 16 * er2 ∧
      weight 4 (d.get 4).toNat = (if angle / 1024 = 1 then angle / 1024 + 241 else angle / 1024) ∧
      weight 5 (d.get 5).toNat = angle % 1024 / 4 / 16 + angle % 1024 / 4 % 16 * 16 ∧
      weight 6 (d.get 6).toNat = angle % 4 * 4 := by
  have hmid : angle / 4 % 256 = angle % 1024 / 4 := by omega
  rw [h.byte0, h.byte1, h.byte2, h.byte3, h.byte4, h.byte5, h.byte6, hmid]
  refine ⟨?_, rfl, rfl, ?_, rfl, rfl, ?_⟩
  · change (ctr * 16 + tmp / 256) / 16 + (ctr * 16 + tmp / 256) % 16 = _
    omega
  · change (32 * b1 + 64 * er2) / 32 % 2 * 32 + (32 * b1 + 64 * er2) / 64 * 16 = _
    omega
  · change angle % 4 * 64 / 64 * 4 = _
    omega

theorem summed_of_built {copyCamLines : Bool} {d : Vector UInt8 8} (h : Built copyCamLines d) :
    Summed d := by
  obtain ⟨frame, t, lkas, a, hlo, hhi, rfl⟩ := h
  obtain ⟨hclo, hchi⟩ := clampAngle_bounds a
  obtain ⟨tmp, htmp⟩ : ∃ n : Nat, (n : Int) = t + 2048 := ⟨(t + 2048).toNat, by omega⟩
  obtain ⟨angle, hangle⟩ : ∃ n : Nat, (n : Int) = clampAngle a + 2048 :=
    ⟨(clampAngle a + 2048).toNat, by omega⟩
  have hbytes := createSteeringControl_bytes copyCamLines frame t lkas a
  rw [← htmp, ← hangle] at hbytes
  have htmp' : ((tmp : Int) % 4096).toNat = tmp := by omega
  have hangle' : (angle : Int).toNat = angle := Int.toNat_natCast _
  rw [htmp', hangle'] at hbytes
  have hlt : angle < 4096 := by omega
  obtain ⟨w0, w1, w2, w3, w4, w5, w6⟩ := hbytes.weights (by omega) (Bool.toNat_lt _)
  refine ⟨hbytes.unused hlt, ?_⟩
  generalize createSteeringControl copyCamLines frame t lkas a = d at *
  have w7 : weight 7 (d.get 7).toNat = _ := hbytes.byte7
  have hall : ∑ i : Fin 8, weight i (d.get i).toNat =
      weight 0 (d.get 0).toNat + weight 1 (d.get 1).toNat + weight 2 (d.get 2).toNat +
        weight 3 (d.get 3).toNat + weight 4 (d.get 4).toNat + weight 5 (d.get 5).toNat +
        weight 6 (d.get 6).toNat + weight 7 (d.get 7).toNat := Fin.sum_univ_eight _
  rw [hall, w0, w1, w2, w3, w4, w5, w6, w7]
  have hmod := lkasChecksum_mod (frame % 16) tmp lkas.errBit1.toNat
    (copyCamLines && lkas.lineNotVisible).toNat (copyCamLines && lkas.ldw).toNat
    lkas.errBit2.toNat lkas.bit1.toNat angle rfl
  obtain ⟨hslo, -⟩ := lkasChecksum_bounds (frame % 16 : Nat) tmp lkas.errBit1.toNat
    (copyCamLines && lkas.lineNotVisible).toNat (copyCamLines && lkas.ldw).toNat
    lkas.errBit2.toNat lkas.bit1.toNat angle 0
  generalize lkasChecksum _ _ _ _ _ _ _ _ _ = c at hmod hslo ⊢
  generalize (if angle / 1024 = 1 then angle / 1024 + 241 else angle / 1024) = fudge at hmod ⊢
  omega

theorem flipBit_get (d : Vector UInt8 8) (i k j : Fin 8) :
    ((flipBit d i k).get j).toNat =
      if i = j then (d.get j).toNat ^^^ 2 ^ k.val else (d.get j).toNat := by
  unfold flipBit
  have hget : ∀ (e : Vector UInt8 8) (j : Fin 8), e.get j = e[j.val] := fun _ _ => rfl
  rw [hget, hget, hget, Vector.getElem_set]
  by_cases heq : i = j
  · rw [if_pos heq, if_pos (congrArg Fin.val heq), heq]
    have hmod : 2 ^ k.val % 2 ^ 8 = 2 ^ k.val :=
      Nat.mod_eq_of_lt (Nat.pow_lt_pow_right (by decide) k.isLt)
    rw [UInt8.toNat_xor, UInt8.toNat_ofNat', hmod]
  · rw [if_neg heq, if_neg fun h => heq (Fin.ext h)]

/-- Flipping any bit of a frame of the packer makes one that it does not build: the other bytes take
off what they did, and the one with the wrong bit does not. -/
theorem flipBit_not_built {copyCamLines : Bool} {d : Vector UInt8 8} (h : Built copyCamLines d)
    (i k : Fin 8) : ¬ Built copyCamLines (flipBit d i k) := by
  intro h'
  have hsum := (summed_of_built h).sum
  have hsum' := (summed_of_built h').sum
  have hself : ((flipBit d i k).get i).toNat = (d.get i).toNat ^^^ 2 ^ k.val := by
    rw [flipBit_get, if_pos rfl]
  have hrest : ∑ j ∈ Finset.univ.erase i, weight j ((flipBit d i k).get j).toNat =
      ∑ j ∈ Finset.univ.erase i, weight j (d.get j).toNat := by
    refine Finset.sum_congr rfl fun j hj => ?_
    rw [flipBit_get, if_neg (Finset.ne_of_mem_erase hj).symm]
  have hu := (summed_of_built h).unused i
  have hu' := (summed_of_built h').unused i
  rw [hself] at hu'
  have hdiffers := weight_flip i _ (d.get i).toNat_lt _ k.isLt hu hu'
  rw [← Finset.add_sum_erase _ _ (Finset.mem_univ i)] at hsum hsum'
  rw [hrest, hself] at hsum'
  omega

/-- The validator never counts a frame of the packer with one wrong bit as good, nor takes a torque
from it. -/
theorem single_bit_rejected (copyCamLines : Bool) (s : CamState) (frame : Nat) {t : Int}
    (hlo : -2048 ≤ t) (hhi : t ≤ 2047) (lkas : CamBits) (a : Int) (i k : Fin 8) :
    let d := flipBit (createSteeringControl copyCamLines frame t lkas a) i k
    (validateCamChecksum copyCamLines s d).ckOk = s.ckOk ∧
      (validateCamChecksum copyCamLines s d).trqPeak = s.trqPeak := by
  have hbuilt : Built copyCamLines (createSteeringControl copyCamLines frame t lkas a) :=
    ⟨frame, t, lkas, a, hlo, hhi, rfl⟩
  have hno := flipBit_not_built hbuilt i k
  intro d
  have hstep := validateCamChecksum_step copyCamLines s d
  constructor
  · rw [hstep.ckOk, decide_eq_false hno]
    rfl
  · rw [hstep.peak, if_neg hno, Nat.max_zero]

theorem single_bit_rejected_full :
    (validateCamChecksum false {}
        (flipBit (createSteeringControl false 7 2047 ⟨true, false, true, true, false⟩ (-300)) 3
          6)).ckOk = 0 ∧
      (validateCamChecksum false {}
        (flipBit (createSteeringControl false 7 2047 ⟨true, false, true, true, false⟩ (-300)) 3
          6)).trqPeak = 0 :=
  single_bit_rejected false {} 7 (by decide) (by decide) _ _ 3 6

/-! ## The frames of the stream -/

/-- The message that `tx_thread` sends. -/
def lkasMessage (copyCamLines : Bool) (ctr : Nat) (applyTorque : Int) (lkas : CamBits)
    (angleRaw : Int) : CANPacket :=
  .eightBytes 0 0x243 (createSteeringControl copyCamLines ctr applyTorque lkas angleRaw)

/-- The firmware reads the torque that the host put in. -/
theorem lkasTorque_message (copyCamLines : Bool) (ctr : Nat) {t : Int} (hlo : -2048 ≤ t)
    (hhi : t ≤ 2047) (lkas : CamBits) (angleRaw : Int) :
    lkasTorque (lkasMessage copyCamLines ctr t lkas angleRaw) = t := by
  have hbytes := createSteeringControl_bytes copyCamLines ctr t lkas angleRaw
  have hmask : ∀ x : UInt8, (x &&& 0x0F).toNat = x.toNat &&& 0x0F := fun x => UInt8.toNat_and x 0x0F
  have hread : lkasTorque (lkasMessage copyCamLines ctr t lkas angleRaw) =
      camTorque (createSteeringControl copyCamLines ctr t lkas angleRaw) := by
    unfold lkasTorque camTorque
    rw [hmask]
    rfl
  rw [hread, hbytes.torque_eq (by omega)]
  omega

/-- After any run of the stream, the firmware decides on the next frame, with all its other fields,
as it decides on the torque in it. -/
theorem lkasFrame_sent (b : Build) (lkasHz : Rat) {s : Loop} (hs : Ready s) (pre : List FrameInput)
    (i : FrameInput) (copyCamLines : Bool) (lkas : CamBits) (angleRaw : Int) {fw : Firmware}
    {long : Bool} {st : SafetyState} (hmode : MazdaMode fw long st)
    (hrelay : st.relayMalfunction = false)
    (hvars : ((stream b lkasHz s pre).gate.observe i).vars = st.toVars) :
    let now := stream b lkasHz s pre
    let next := txFrame b lkasHz i now
    let msg := lkasMessage copyCamLines now.ctr next.2.tx.applyLast lkas angleRaw
    (safetyTxHook fw i.ts msg st).1 = next.1 ∧
      (safetyTxHook fw i.ts msg st).2.toVars = next.2.gate.vars := by
  intro now next msg
  have hready : Ready now := Run.run_inv (fun _ i hs => ready_frame b lkasHz i hs) hs pre
  obtain ⟨hlo, hhi⟩ := frame_torque b lkasHz i hready
  exact frame_safetyTxHook b lkasHz i hready hmode hrelay hvars.symm rfl rfl rfl
    (lkasTorque_message copyCamLines now.ctr hlo hhi lkas angleRaw)

def engagedState : SafetyState :=
  { mazdaStart Firmware.f407 0 {} with controlsAllowed := true }

def engagedLoop : Loop :=
  { tx := { safetyParam := 0 }
    gate :=
      { vars := engagedState.toVars
        safetyMode := safetyMazda
        safetyParam := 0
        safetyTxBlocked := 0 } }

def engagedInput : FrameInput :=
  { latActive := true, torqueNorm := 1, hostDriver := 127, pandaDriver := [],
    controlsAllowed := true, refreshed := false, ts := 0 }

/-- The ramp of two engaged frames, and a driver who holds against the third. -/
def engagedRun : List FrameInput :=
  [engagedInput, { engagedInput with hostDriver := 130, pandaDriver := [130], ts := 10000 }]

def heldInput : FrameInput :=
  { engagedInput with hostDriver := 140, pandaDriver := [140, 141], ts := 20000 }

theorem lkasFrame_sent_engaged :
    let now := stream Build.f407 70 engagedLoop engagedRun
    let st : SafetyState := { engagedState with toVars := (now.gate.observe heldInput).vars }
    let next := txFrame Build.f407 70 heldInput now
    let msg := lkasMessage true now.ctr next.2.tx.applyLast ⟨true, false, false, false, false⟩ 100
    (safetyTxHook Firmware.f407 heldInput.ts msg st).1 = next.1 ∧
      (safetyTxHook Firmware.f407 heldInput.ts msg st).2.toVars = next.2.gate.vars := by
  intro now st
  have hstart := mazdaStart_mode Firmware.f407 0 {}
  have hmode : MazdaMode Firmware.f407 false st :=
    ⟨hstart.hooks, hstart.2, hstart.3, hstart.4, by decide +kernel⟩
  have hready : Ready engagedLoop := ⟨rfl, rfl, ⟨by decide, by decide⟩, ⟨by decide, by decide⟩⟩
  exact lkasFrame_sent Build.f407 70 hready engagedRun heldInput true
    ⟨true, false, false, false, false⟩ 100 hmode rfl rfl

end Steering
end MazdaPort
