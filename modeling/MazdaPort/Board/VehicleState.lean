import MazdaPort.Board.CanPath
import MazdaPort.Can.Parser
import Mathlib.Data.Rat.Floor

/-!
# MazdaPort.Board.VehicleState

`vehicle_state.h`: the decoding of the car's frames on the device, and its call in `can_rx`.

`vsSig_eq`: the walk of `vs_sig` reads what the host's parser reads, for every big-endian signal of
at most a frame. What is done with the value afterwards does not always agree with the DBC file:
`decoded_iff` says for which frames it does.
-/

namespace MazdaPort
namespace Board
namespace Vehicle

open Usb Can Bits CanPath

/-! ## The walk over the bits -/

/-- The loop of `vs_sig`. Its callers ask for 16 bits at most, so `val` fits into 32. -/
def vsLoop (d : List UInt8) : Nat → Nat → Nat → Nat → Nat
  | 0, _, _, val => val
  | length + 1, byteI, bitI, val =>
    if 8 ≤ byteI then val
    else
      let val := val <<< 1 ||| ((d.getD byteI 0).toNat >>> bitI &&& 1)
      match bitI with
      | 0 => vsLoop d length (byteI + 1) 7 val
      | bitI + 1 => vsLoop d length byteI bitI val

def vsSig (d : List UInt8) (startBit length : Nat) : Nat :=
  vsLoop d length (startBit / 8) (startBit % 8) 0

/-- The place of a bit in the order in which a big-endian signal takes them, and the bit at a
place. -/
def bePlace (b : Nat) : Nat := 8 * (b / 8) + (7 - b % 8)

theorem vsLoop_testBit {d : List UInt8} {length byteI bitI : Nat} (hbit : bitI < 8)
    (hin : 8 * byteI + (7 - bitI) + length ≤ 64) (val j : Nat) :
    (vsLoop d length byteI bitI val).testBit j =
      if j < length then bit d (bePlace (8 * byteI + (7 - bitI) + (length - 1 - j)))
      else val.testBit (j - length) := by
  induction length generalizing byteI bitI val with
  | zero => simp [vsLoop]
  | succ length ih =>
    have hbyte : ¬ 8 ≤ byteI := by omega
    have hread : ∀ k, (val <<< 1 ||| ((d.getD byteI 0).toNat >>> bitI &&& 1)).testBit k =
        if k = 0 then bit d (8 * byteI + bitI) else val.testBit (k - 1) := by
      intro k
      have hdiv : (8 * byteI + bitI) / 8 = byteI := by omega
      have hmod : (8 * byteI + bitI) % 8 = bitI := by omega
      rw [bit, hdiv, hmod, Nat.testBit_or, Nat.testBit_shiftLeft, Nat.testBit_and,
        Nat.testBit_shiftRight]
      cases k with
      | zero =>
        simp
        rfl
      | succ k => simp [Nat.testBit_one_eq_true_iff_self_eq_zero]
    have hhere : bePlace (8 * byteI + (7 - bitI)) = 8 * byteI + bitI := by
      unfold bePlace
      omega
    -- the rest of the walk, from the next place on
    have hrest : ∀ byteI' bitI', bitI' < 8 →
        8 * byteI' + (7 - bitI') = 8 * byteI + (7 - bitI) + 1 →
          (vsLoop d length byteI' bitI'
            (val <<< 1 ||| ((d.getD byteI 0).toNat >>> bitI &&& 1))).testBit j =
          if j < length + 1 then
            bit d (bePlace (8 * byteI + (7 - bitI) + (length + 1 - 1 - j)))
          else val.testBit (j - (length + 1)) := by
      intro byteI' bitI' hbit' hplace
      rw [ih hbit' (by omega), hplace, hread]
      rcases Nat.lt_trichotomy j length with hlt | rfl | hgt
      · rw [if_pos hlt, if_pos (by omega)]
        congr 2
        omega
      · rw [if_neg (lt_irrefl _), if_pos (Nat.sub_self j), if_pos (Nat.lt_succ_self j),
          Nat.add_sub_cancel, Nat.sub_self, Nat.add_zero, hhere]
      · rw [if_neg (by omega), if_neg (by omega), if_neg (by omega), Nat.sub_sub]
    unfold vsLoop
    rw [if_neg hbyte]
    dsimp only
    cases bitI with
    | zero => exact hrest (byteI + 1) 7 (by decide) (by omega)
    | succ bitI => exact hrest byteI bitI (by omega) (by omega)

/-- A signal of the DBC file ends as many places after its start as its size says. -/
theorem ofDbc_lsb {startBit size : Nat} (factor offset : Rat) (hsize : 0 < size)
    (hin : bePlace startBit + size ≤ 64) :
    (Signal.ofDbc startBit size false factor offset).lsb =
      bePlace (bePlace startBit + size - 1) := by
  have hidx : ∀ b < 64, beBits.idxOf b = bePlace b := by decide
  have hget : ∀ q < 64, beBits.getD q 0 = bePlace q := by decide
  have hstart : startBit < 64 := by
    unfold bePlace at hin
    omega
  rw [Signal.ofDbc]
  simp only [Bool.false_eq_true, if_false]
  rw [hidx startBit hstart, hget _ (by omega)]

theorem ofDbc_bitAt {startBit size : Nat} (factor offset : Rat) (hsize : 0 < size)
    (hin : bePlace startBit + size ≤ 64) {k : Nat} (hk : k < size) :
    (Signal.ofDbc startBit size false factor offset).bitAt k =
      bePlace (bePlace startBit + (size - 1 - k)) := by
  have hle : (Signal.ofDbc startBit size false factor offset).isLittleEndian = false := rfl
  unfold Signal.bitAt Signal.byteAt
  rw [ofDbc_lsb factor offset hsize hin, hle]
  simp only [Bool.false_eq_true, if_false]
  unfold bePlace
  omega

theorem ofDbc_fits {startBit size : Nat} (factor offset : Rat) (hsize : 0 < size)
    (hin : bePlace startBit + size ≤ 64) :
    (Signal.ofDbc startBit size false factor offset).Fits 8 := by
  have hlsb := ofDbc_lsb factor offset hsize hin
  have hle : (Signal.ofDbc startBit size false factor offset).isLittleEndian = false := rfl
  have hsz : (Signal.ofDbc startBit size false factor offset).size = size := rfl
  unfold Signal.Fits Signal.top
  rw [hlsb, hle, hsz]
  simp only [Bool.false_eq_true, if_false]
  generalize bePlace startBit = p at hin ⊢
  unfold bePlace
  omega

/-- `vs_sig` reads what `get_raw_value` reads. -/
theorem vsSig_eq {d : List UInt8} (hd : d.length = 8) {startBit size : Nat}
    (factor offset : Rat) (hsize : 0 < size) (hin : bePlace startBit + size ≤ 64) :
    vsSig d startBit size = getRawValue d (.ofDbc startBit size false factor offset) := by
  have hfit : (Signal.ofDbc startBit size false factor offset).Fits d.length := by
    rw [hd]
    exact ofDbc_fits factor offset hsize hin
  have hwalk : 8 * (startBit / 8) + (7 - startBit % 8) + size ≤ 64 := hin
  refine Nat.eq_of_testBit_eq fun k => ?_
  rw [vsSig, vsLoop_testBit (Nat.mod_lt _ (by decide)) hwalk, getRawValue_testBit hfit]
  have hsz : (Signal.ofDbc startBit size false factor offset).size = size := rfl
  rw [hsz]
  by_cases hk : k < size
  · rw [if_pos hk, ofDbc_bitAt factor offset hsize hin hk, decide_eq_true hk, Bool.true_and]
    rfl
  · simp [hk]

/-! ## The decoding -/

/-- `VehicleState_t`, with the units its comments give. -/
structure VehicleState where
  counter : UInt16 := 0
  steerAngle : Int16 := 0  -- deg * 10
  steerRate : Int16 := 0  -- deg/s * 10
  steerTorque : Int16 := 0  -- motor torque * 10
  torqueSensor : Int8 := 0  -- raw sensor, -127 offset applied
  speed : UInt16 := 0  -- kph * 100
  rpm : UInt16 := 0
  pedalGas : UInt16 := 0  -- raw 12-bit
  wheelFl : UInt16 := 0  -- kph * 100, as the three below
  wheelFr : UInt16 := 0
  wheelRl : UInt16 := 0
  wheelRr : UInt16 := 0
  rxFrames : UInt32 := 0
  deriving DecidableEq, Repr

def VehicleState.counted (vs : VehicleState) : VehicleState :=
  { vs with counter := vs.counter + 1, rxFrames := vs.rxFrames + 1 }

def vehicleStateUpdate (addr : Nat) (d : List UInt8) (vs : VehicleState) : VehicleState :=
  if addr = 0x082 then
    VehicleState.counted
      { vs with steerAngle := .ofInt (((vsSig d 23 16 * 5 / 10 : Nat) : Int) - 16000) }
  else if addr = 0x241 then
    VehicleState.counted
      { vs with steerRate := .ofInt (((vsSig d 23 16 * 25 / 10 : Nat) : Int) - 81920) }
  else if addr = 0x240 then
    let raw := vsSig d 46 15
    let sgn : Int := if raw &&& 0x4000 ≠ 0 then (raw : Int) - 32768 else raw
    VehicleState.counted
      { vs with
        steerTorque := .ofInt sgn
        torqueSensor := .ofInt ((vsSig d 7 8 : Int) - 127) }
  else if addr = 0x202 then
    VehicleState.counted
      { vs with
        rpm := .ofNat (vsSig d 7 16 / 4)
        speed := .ofNat (vsSig d 23 16)
        pedalGas := .ofNat (vsSig d 39 12) }
  else if addr = 0x215 then
    VehicleState.counted
      { vs with
        wheelFl := .ofNat (vsSig d 7 16)
        wheelFr := .ofNat (vsSig d 23 16)
        wheelRl := .ofNat (vsSig d 39 16)
        wheelRr := .ofNat (vsSig d 55 16) }
  else vs

/-- The frame that `can_rx` takes from the FIFO. -/
def received (fw : CanBuild) (canNumber : Nat) (fifo : Mailbox) : Safety.CANPacket :=
  canSetChecksum (fifo.toPacket false (fw.busLookup canNumber))

/-- The part of `can_rx` that decodes the frame, between the forwarding and the safety hook. -/
def canRx (fw : CanBuild) (canNumber : Nat) (fifo : Mailbox) (vs : VehicleState) : VehicleState :=
  let toPush := received fw canNumber fifo
  if fw.build.pandaNucleo then vehicleStateUpdate toPush.addr.toNat toPush.data.toList vs else vs

/-! ## What the DBC file says -/

/-- A signal of `mazda_2017.dbc`, the field that holds it, and how many of the field's units make
one of the signal's. -/
structure DbcField where
  sig : Signal
  isSigned : Bool := false
  unit : Rat
  field : VehicleState → Int

def steerAngle : Signal := .ofDbc 23 16 false 0.05 (-1600)

def steerAngleRate : Signal := .ofDbc 23 16 false 0.25 (-8192)

def steerTorqueMotor : Signal := .ofDbc 46 15 false 0.1 0

def steerTorqueSensor : Signal := .ofDbc 7 8 false 1 (-127)

def wheelSpeed (startBit : Nat) : Signal := .ofDbc startBit 16 false 0.01 (-100)

def dbcFields (addr : Nat) : List DbcField :=
  if addr = 0x082 then
    [{ sig := steerAngle, unit := 10, field := fun vs => vs.steerAngle.toInt }]
  else if addr = 0x241 then
    [{ sig := steerAngleRate, unit := 10, field := fun vs => vs.steerRate.toInt }]
  else if addr = 0x240 then
    [{ sig := steerTorqueMotor
       isSigned := true
       unit := 10
       field := fun vs => vs.steerTorque.toInt },
     { sig := steerTorqueSensor, unit := 1, field := fun vs => vs.torqueSensor.toInt }]
  else if addr = 0x202 then
    [{ sig := .ofDbc 7 16 false 0.25 0, unit := 1, field := fun vs => vs.rpm.toNat },
     { sig := .ofDbc 23 16 false 0.01 0, unit := 100, field := fun vs => vs.speed.toNat },
     { sig := .ofDbc 39 12 false 1 0, unit := 1, field := fun vs => vs.pedalGas.toNat }]
  else if addr = 0x215 then
    [{ sig := wheelSpeed 7, unit := 100, field := fun vs => vs.wheelFl.toNat },
     { sig := wheelSpeed 23, unit := 100, field := fun vs => vs.wheelFr.toNat },
     { sig := wheelSpeed 39, unit := 100, field := fun vs => vs.wheelRl.toNat },
     { sig := wheelSpeed 55, unit := 100, field := fun vs => vs.wheelRr.toNat }]
  else []

/-- `MessageState.parse`, for a signal that may be signed. -/
def DbcField.raw (f : DbcField) (d : List UInt8) : Int :=
  let tmp := getRawValue d f.sig
  if f.isSigned then (tmp : Int) - ((tmp >>> (f.sig.size - 1) &&& 1) * 2 ^ f.sig.size : Nat) else tmp

def DbcField.physical (f : DbcField) (d : List UInt8) : Rat :=
  f.raw d * f.sig.factor + f.sig.offset

/-- The integer next to `q` on the side of zero. -/
def truncate (q : Rat) : Int := if 0 ≤ q then ⌊q⌋ else ⌈q⌉

/-- The field holds the value that the DBC file gives for the frame, cut off to its unit. -/
def DbcField.Holds (f : DbcField) (d : List UInt8) (vs : VehicleState) : Prop :=
  f.field vs = truncate (f.physical d * f.unit)

/-- After a frame of bus 0 its fields hold what the DBC file says, and a frame of another bus
changes nothing. -/
def Decoded (fw : CanBuild) (canNumber : Nat) (fifo : Mailbox) (vs : VehicleState) : Prop :=
  let toPush := received fw canNumber fifo
  if fw.busLookup canNumber = 0 then
    ∀ f ∈ dbcFields toPush.addr.toNat, f.Holds toPush.data.toList (canRx fw canNumber fifo vs)
  else canRx fw canNumber fifo vs = vs

/-- The raw value is decoded to the unit, without a rounding away from zero, inside the field. -/
def Exact (addr : Nat) (d : List UInt8) : Prop :=
  (addr = 0x082 → 2 ∣ getRawValue d steerAngle ∨ 32000 ≤ getRawValue d steerAngle) ∧
    (addr = 0x241 → 19661 < getRawValue d steerAngleRate ∧ getRawValue d steerAngleRate ≤ 45875 ∧
      (2 ∣ getRawValue d steerAngleRate ∨ 32768 ≤ getRawValue d steerAngleRate)) ∧
    (addr = 0x240 → getRawValue d steerTorqueSensor ≤ 254) ∧ addr ≠ 0x215

instance (f : DbcField) (d : List UInt8) (vs : VehicleState) : Decidable (f.Holds d vs) :=
  inferInstanceAs (Decidable (_ = _))

instance (fw : CanBuild) (canNumber : Nat) (fifo : Mailbox) (vs : VehicleState) :
    Decidable (Decoded fw canNumber fifo vs) := by
  unfold Decoded
  dsimp only
  infer_instance

instance (addr : Nat) (d : List UInt8) : Decidable (Exact addr d) := by
  unfold Exact
  infer_instance

/-! ## Rounding and narrowing -/

theorem truncate_eq {q : Rat} (a : Int) {b : Nat} (hb : 0 < b) (hq : q = (a : Rat) / b) :
    truncate q = a.tdiv b := by
  have hb' : (0 : Rat) < b := by exact_mod_cast hb
  have hsign : (0 : Rat) ≤ (a : Rat) / b ↔ 0 ≤ a := by
    rw [le_div_iff₀ hb', zero_mul]
    exact_mod_cast Iff.rfl
  unfold truncate
  rw [hq, Rat.floor_intCast_div_natCast, Rat.ceil_intCast_div_natCast]
  split
  · next ha => exact (Int.tdiv_eq_ediv_of_nonneg (hsign.1 ha)).symm
  · next ha =>
    have hneg : ¬ 0 ≤ a := fun h => ha (hsign.2 h)
    rw [← Int.tdiv_eq_ediv_of_nonneg (by omega), Int.neg_tdiv, neg_neg]

/-- A narrowing cast keeps a value, or moves it by more than a rounding does. -/
theorem int16_eq_iff (v w : Int) (hw : w = v ∨ w = v + 1) :
    (Int16.ofInt v).toInt = w ↔ w = v ∧ -32768 ≤ v ∧ v ≤ 32767 := by
  have hsize : Int16.size = 65536 := rfl
  rw [Int16.toInt_ofInt, hsize, Int.bmod_def]
  split <;> omega

theorem int8_eq_iff (v : Int) :
    (Int8.ofInt v).toInt = v ↔ -128 ≤ v ∧ v ≤ 127 := by
  have hsize : Int8.size = 256 := rfl
  rw [Int8.toInt_ofInt, hsize, Int.bmod_def]
  split <;> omega

theorem getRawValue_lt {sig : Signal} {d : List UInt8} (hfit : sig.Fits d.length) :
    getRawValue d sig < 2 ^ sig.size := by
  refine Nat.lt_pow_two_of_testBit _ fun k hk => ?_
  rw [getRawValue_testBit hfit, decide_eq_false (by omega), Bool.false_and]

theorem tdiv_two (a : Int) : a.tdiv 2 = if 0 ≤ a then a / 2 else -(-a / 2) := by
  split
  · next ha => exact Int.tdiv_eq_ediv_of_nonneg ha
  · next ha => rw [← Int.tdiv_eq_ediv_of_nonneg (by omega), Int.neg_tdiv, neg_neg]

/-- Bit 14 is the sign, as the code and as the parser read it. -/
theorem motor_sign (raw : Nat) :
    (if raw &&& 0x4000 ≠ 0 then (raw : Int) - 32768 else raw) =
      (raw : Int) - ((raw >>> 14 &&& 1) * 2 ^ 15 : Nat) := by
  have hand : raw &&& 0x4000 = (raw.testBit 14).toNat * 2 ^ 14 := Nat.and_two_pow raw 14
  rw [hand, Nat.testBit_eq_decide_div_mod_eq, Nat.shiftRight_eq_div_pow, Nat.and_one_is_mod]
  by_cases hbit : raw / 2 ^ 14 % 2 = 1
  · rw [hbit]
    simp
  · have hzero : raw / 2 ^ 14 % 2 = 0 := by omega
    rw [hzero]
    simp

/-! ## Each frame -/

theorem DbcField.holds_iff {f : DbcField} {d : List UInt8} {vs : VehicleState} (a : Int) {b : Nat}
    (hb : 0 < b) (hq : f.physical d * f.unit = (a : Rat) / b) :
    f.Holds d vs ↔ f.field vs = a.tdiv b := by
  rw [DbcField.Holds, truncate_eq a hb hq]

/-- An unsigned field of 16 bits whose value has no fraction but what the division cuts off. -/
theorem uint16_holds {f : DbcField} {d : List UInt8} {vs : VehicleState} (raw : Nat) {b : Nat}
    (hb : 0 < b) (hq : f.physical d * f.unit = (raw : Rat) / b)
    (hfield : f.field vs = (UInt16.ofNat (raw / b)).toNat) (hlt : raw < 2 ^ 16) :
    f.Holds d vs := by
  have hle : raw / b ≤ raw := Nat.div_le_self raw b
  rw [DbcField.holds_iff (raw : Int) hb (by rw [hq, Int.cast_natCast]), hfield, UInt16.toNat_ofNat',
    Nat.mod_eq_of_lt (by omega), Int.ofNat_tdiv]

section Frames

variable {d : List UInt8} (hd : d.length = 8) (vs : VehicleState)

include hd

theorem steer_holds :
    (∀ f ∈ dbcFields 0x082, f.Holds d (vehicleStateUpdate 0x082 d vs)) ↔
      2 ∣ getRawValue d steerAngle ∨ 32000 ≤ getRawValue d steerAngle := by
  have hraw : vsSig d 23 16 = getRawValue d steerAngle :=
    vsSig_eq hd 0.05 (-1600) (by decide) (by decide)
  have hlt : getRawValue d steerAngle < 2 ^ 16 := getRawValue_lt (by rw [hd]; decide)
  have hfields : dbcFields 0x082 =
      [{ sig := steerAngle, unit := 10, field := fun vs => vs.steerAngle.toInt }] := rfl
  have hfield : (vehicleStateUpdate 0x082 d vs).steerAngle =
      .ofInt (((vsSig d 23 16 * 5 / 10 : Nat) : Int) - 16000) := rfl
  rw [hfields, List.forall_mem_singleton,
    DbcField.holds_iff ((getRawValue d steerAngle : Int) - 32000) two_pos (by
      simp [DbcField.physical, DbcField.raw, steerAngle, Signal.ofDbc]
      ring)]
  dsimp only
  rw [hfield, hraw]
  generalize getRawValue d steerAngle = raw at hlt ⊢
  rw [Nat.cast_ofNat, tdiv_two, int16_eq_iff _ _ (by split <;> omega)]
  split <;> omega

theorem steerRate_holds :
    (∀ f ∈ dbcFields 0x241, f.Holds d (vehicleStateUpdate 0x241 d vs)) ↔
      19661 < getRawValue d steerAngleRate ∧ getRawValue d steerAngleRate ≤ 45875 ∧
        (2 ∣ getRawValue d steerAngleRate ∨ 32768 ≤ getRawValue d steerAngleRate) := by
  have hraw : vsSig d 23 16 = getRawValue d steerAngleRate :=
    vsSig_eq hd 0.25 (-8192) (by decide) (by decide)
  have hlt : getRawValue d steerAngleRate < 2 ^ 16 := getRawValue_lt (by rw [hd]; decide)
  have hfields : dbcFields 0x241 =
      [{ sig := steerAngleRate, unit := 10, field := fun vs => vs.steerRate.toInt }] := rfl
  have hfield : (vehicleStateUpdate 0x241 d vs).steerRate =
      .ofInt (((vsSig d 23 16 * 25 / 10 : Nat) : Int) - 81920) := rfl
  rw [hfields, List.forall_mem_singleton,
    DbcField.holds_iff (5 * (getRawValue d steerAngleRate : Int) - 163840) two_pos (by
      simp [DbcField.physical, DbcField.raw, steerAngleRate, Signal.ofDbc]
      ring)]
  dsimp only
  rw [hfield, hraw]
  generalize getRawValue d steerAngleRate = raw at hlt ⊢
  rw [Nat.cast_ofNat, tdiv_two, int16_eq_iff _ _ (by split <;> omega)]
  split <;> omega

theorem steerTorque_holds :
    (∀ f ∈ dbcFields 0x240, f.Holds d (vehicleStateUpdate 0x240 d vs)) ↔
      getRawValue d steerTorqueSensor ≤ 254 := by
  have hmotor : vsSig d 46 15 = getRawValue d steerTorqueMotor :=
    vsSig_eq hd 0.1 0 (by decide) (by decide)
  have hmotorLt : getRawValue d steerTorqueMotor < 2 ^ 15 :=
    getRawValue_lt (by rw [hd]; decide)
  have hsensor : vsSig d 7 8 = getRawValue d steerTorqueSensor :=
    vsSig_eq hd 1 (-127) (by decide) (by decide)
  have hsensorLt : getRawValue d steerTorqueSensor < 2 ^ 8 :=
    getRawValue_lt (by rw [hd]; decide)
  have hfields : dbcFields 0x240 =
      [{ sig := steerTorqueMotor, isSigned := true, unit := 10,
         field := fun vs => vs.steerTorque.toInt },
       { sig := steerTorqueSensor, unit := 1, field := fun vs => vs.torqueSensor.toInt }] := rfl
  have hfield : (vehicleStateUpdate 0x240 d vs).steerTorque =
      .ofInt (if vsSig d 46 15 &&& 0x4000 ≠ 0 then (vsSig d 46 15 : Int) - 32768
        else vsSig d 46 15) := rfl
  have hfield' : (vehicleStateUpdate 0x240 d vs).torqueSensor =
      .ofInt ((vsSig d 7 8 : Int) - 127) := rfl
  have hsigned : DbcField.raw
      { sig := steerTorqueMotor, isSigned := true, unit := 10,
        field := fun vs => vs.steerTorque.toInt } d =
      (getRawValue d steerTorqueMotor : Int) -
        ((getRawValue d steerTorqueMotor >>> 14 &&& 1) * 2 ^ 15 : Nat) := rfl
  have hsign := motor_sign (getRawValue d steerTorqueMotor)
  rw [hfields, List.forall_mem_cons, List.forall_mem_singleton,
    DbcField.holds_iff ((getRawValue d steerTorqueMotor : Int) -
      ((getRawValue d steerTorqueMotor >>> 14 &&& 1) * 2 ^ 15 : Nat)) one_pos (by
        rw [DbcField.physical, hsigned]
        simp [steerTorqueMotor, Signal.ofDbc]
        ring),
    DbcField.holds_iff ((getRawValue d steerTorqueSensor : Int) - 127) one_pos (by
      simp [DbcField.physical, DbcField.raw, steerTorqueSensor, Signal.ofDbc]
      ring)]
  dsimp only
  rw [hfield, hfield', hmotor, hsensor, hsign]
  have hrange : -32768 ≤ (getRawValue d steerTorqueMotor : Int) -
      ((getRawValue d steerTorqueMotor >>> 14 &&& 1) * 2 ^ 15 : Nat) ∧
        (getRawValue d steerTorqueMotor : Int) -
          ((getRawValue d steerTorqueMotor >>> 14 &&& 1) * 2 ^ 15 : Nat) ≤ 32767 := by
    rw [← hsign]
    split <;> omega
  rw [Nat.cast_one, Int.tdiv_one, Int.tdiv_one, int8_eq_iff, int16_eq_iff _ _ (.inl rfl)]
  constructor
  · rintro ⟨-, -, hhigh⟩
    omega
  · intro hsmall
    exact ⟨⟨rfl, hrange⟩, by omega, by omega⟩

theorem engineData_holds : ∀ f ∈ dbcFields 0x202, f.Holds d (vehicleStateUpdate 0x202 d vs) := by
  have hrpm : vsSig d 7 16 = getRawValue d (.ofDbc 7 16 false 0.25 0) :=
    vsSig_eq hd 0.25 0 (by decide) (by decide)
  have hrpmLt : getRawValue d (.ofDbc 7 16 false 0.25 0) < 2 ^ 16 :=
    getRawValue_lt (by rw [hd]; decide)
  have hspeed : vsSig d 23 16 = getRawValue d (.ofDbc 23 16 false 0.01 0) :=
    vsSig_eq hd 0.01 0 (by decide) (by decide)
  have hspeedLt : getRawValue d (.ofDbc 23 16 false 0.01 0) < 2 ^ 16 :=
    getRawValue_lt (by rw [hd]; decide)
  have hgas : vsSig d 39 12 = getRawValue d (.ofDbc 39 12 false 1 0) :=
    vsSig_eq hd 1 0 (by decide) (by decide)
  have hgasLt : getRawValue d (.ofDbc 39 12 false 1 0) < 2 ^ 12 :=
    getRawValue_lt (by rw [hd]; decide)
  have hfields : dbcFields 0x202 =
      [{ sig := .ofDbc 7 16 false 0.25 0, unit := 1, field := fun vs => vs.rpm.toNat },
       { sig := .ofDbc 23 16 false 0.01 0, unit := 100, field := fun vs => vs.speed.toNat },
       { sig := .ofDbc 39 12 false 1 0, unit := 1, field := fun vs => vs.pedalGas.toNat }] := rfl
  have hstate : vehicleStateUpdate 0x202 d vs =
      VehicleState.counted
        { vs with
          rpm := .ofNat (vsSig d 7 16 / 4)
          speed := .ofNat (vsSig d 23 16)
          pedalGas := .ofNat (vsSig d 39 12) } := rfl
  rw [hfields, hstate, hrpm, hspeed, hgas]
  intro f hf
  simp only [List.mem_cons, List.not_mem_nil, or_false] at hf
  rcases hf with rfl | rfl | rfl
  · refine uint16_holds _ four_pos ?_ rfl hrpmLt
    simp [DbcField.physical, DbcField.raw, Signal.ofDbc]
    ring
  · refine uint16_holds _ one_pos ?_ (by rw [Nat.div_one]; rfl) hspeedLt
    simp [DbcField.physical, DbcField.raw, Signal.ofDbc]
    ring
  · refine uint16_holds _ one_pos ?_ (by rw [Nat.div_one]; rfl) (by omega)
    simp [DbcField.physical, DbcField.raw, Signal.ofDbc]

/-- The offset of -100 kph is in the DBC file and not in the fields. -/
theorem wheelSpeeds_holds :
    ¬ ∀ f ∈ dbcFields 0x215, f.Holds d (vehicleStateUpdate 0x215 d vs) := by
  have hraw : vsSig d 7 16 = getRawValue d (wheelSpeed 7) :=
    vsSig_eq hd 0.01 (-100) (by decide) (by decide)
  have hlt : getRawValue d (wheelSpeed 7) < 2 ^ 16 := getRawValue_lt (by rw [hd]; decide)
  have hfield : (vehicleStateUpdate 0x215 d vs).wheelFl = .ofNat (vsSig d 7 16) := rfl
  intro hall
  have hfl := hall { sig := wheelSpeed 7, unit := 100, field := fun vs => vs.wheelFl.toNat }
    List.mem_cons_self
  rw [DbcField.holds_iff ((getRawValue d (wheelSpeed 7) : Int) - 10000) one_pos (by
    simp [DbcField.physical, DbcField.raw, wheelSpeed, Signal.ofDbc]
    ring)] at hfl
  dsimp only at hfl
  rw [hfield, hraw, UInt16.toNat_ofNat', Nat.mod_eq_of_lt hlt, Nat.cast_one, Int.tdiv_one] at hfl
  omega

end Frames

theorem frame_holds_iff {d : List UInt8} (hd : d.length = 8) (addr : Nat) (vs : VehicleState) :
    (∀ f ∈ dbcFields addr, f.Holds d (vehicleStateUpdate addr d vs)) ↔ Exact addr d := by
  unfold Exact
  by_cases h082 : addr = 0x082
  · subst h082
    rw [steer_holds hd vs]
    simp
  by_cases h241 : addr = 0x241
  · subst h241
    rw [steerRate_holds hd vs]
    simp
  by_cases h240 : addr = 0x240
  · subst h240
    rw [steerTorque_holds hd vs]
    simp
  by_cases h202 : addr = 0x202
  · subst h202
    have hall := engineData_holds hd vs
    simpa using hall
  by_cases h215 : addr = 0x215
  · subst h215
    simp [wheelSpeeds_holds hd vs]
  simp [dbcFields, h082, h241, h240, h202, h215]

theorem counted_ne {w vs : VehicleState} (h : w.counter = vs.counter) : w.counted ≠ vs := by
  intro heq
  have hcounter : vs.counter + 1 = vs.counter := by
    rw [← h]
    exact (congrArg VehicleState.counter heq).trans h.symm
  simp at hcounter

/-- A frame of one of the five addresses is counted, so it changes the state. -/
theorem update_eq_self_iff (addr : Nat) (d : List UInt8) (vs : VehicleState) :
    vehicleStateUpdate addr d vs = vs ↔ addr ∉ [0x082, 0x240, 0x241, 0x202, 0x215] := by
  have hno : ∀ {w : VehicleState}, w.counter = vs.counter → (w.counted = vs ↔ False) :=
    fun h => iff_false_intro (counted_ne h)
  unfold vehicleStateUpdate
  split_ifs with h082 h241 h240 h202 h215
  · simp [h082, hno]
  · simp [h241, hno]
  · simp [h240, hno]
  · simp [h202, hno]
  · simp [h215, hno]
  · simp [h082, h241, h240, h202, h215]

/-- After a frame the state agrees with the DBC file exactly when it came on bus 0 with a value that
its field can hold to the unit, or was not one of the five. -/
theorem decoded_iff (fw : CanBuild) (hfw : fw.build.pandaNucleo = true) (canNumber : Nat)
    (fifo : Mailbox) (vs : VehicleState) :
    Decoded fw canNumber fifo vs ↔
      if fw.busLookup canNumber = 0 then
        Exact (received fw canNumber fifo).addr.toNat (received fw canNumber fifo).data.toList
      else (received fw canNumber fifo).addr.toNat ∉ [0x082, 0x240, 0x241, 0x202, 0x215] := by
  unfold Decoded canRx
  dsimp only
  rw [if_pos hfw]
  split
  · exact frame_holds_iff (Vector.length_toList) _ vs
  · exact update_eq_self_iff _ _ vs

/-- A frame of eight bytes, as the registers of the FIFO show it. -/
def eightBytes (addr dlr dhr : UInt32) : Mailbox :=
  { ir := addr <<< 21, dtr := 8, dlr := dlr, dhr := dhr }

/-- A steering wheel that does not turn. -/
theorem steerRate_decoded : Decoded .f407 0 (eightBytes 0x241 0x00800000 0) {} := by
  refine (decoded_iff .f407 rfl 0 _ _).2 ?_
  decide +kernel

/-- The torque sensor at its highest value, the steering rate at its lowest, wheels at rest, and a
frame of bus 1. -/
theorem frames_not_decoded :
    ¬ Decoded .f407 0 (eightBytes 0x240 0xFF 0) {} ∧
      ¬ Decoded .f407 0 (eightBytes 0x241 0 0) {} ∧
      ¬ Decoded .f407 0 (eightBytes 0x215 0x10271027 0x10271027) {} ∧
      ¬ Decoded .f407 1 (eightBytes 0x202 0 0) {} := by
  decide +kernel

end Vehicle
end Board
end MazdaPort
